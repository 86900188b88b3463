import FinP2PAdapter.Migration.Progress
import FinP2PAdapter.Migration.SerialOrder

/-! Replicas of one adapter boot together, all with the same ledger schema. The legacy tables are
adopted once: every interleaving of the runs leaves the catalogue as it was or as a single run
leaves it, and a run fails only for a reason of its own. A rename that failed for such a reason is
still taken as done when another replica has done it by the time the run looks again. -/

namespace FinP2PAdapter.Migration

open Renames Machine

section Replicas

variable {ι ν τ : Type*} [DecidableEq ι] [Fintype ι] [DecidableEq ν]

/-- Every table is under its old name or, if that is a legacy name, under the new one, and a new
name that was in use still denotes the same table. -/
def RowsPreserved (rs : List (Rename ν)) (c c' : Catalog ν τ) : Prop :=
  (∀ name table, c name = some table → c' name = some table ∨
    ∃ r ∈ rs, r.source = name ∧ c' name = none ∧ c' r.target = some table) ∧
  ∀ r ∈ rs, (c r.target).isSome → c' r.target = c r.target

variable {rs : List (Rename ν)} {c : Catalog ν τ} {s s' t : State ι ν τ} {i : ι} {r : Rename ν}

section Catalogs

variable (ha : Apart (· ∈ rs)) (hu : rs.Pairwise fun a b => a.source ≠ b.source)

include ha hu

theorem rowsPreserved_adopt : RowsPreserved rs c (c.adopt rs) := by
  refine ⟨fun name table hname => ?_, fun r hr hsome => ?_⟩
  · by_cases hsrc : ∃ r ∈ rs, c.due r = true ∧ r.source = name
    · obtain ⟨r, hr, hd, rfl⟩ := hsrc
      refine .inr ⟨r, hr, rfl, Catalog.adopt_source ha hu hr hd, ?_⟩
      rw [Catalog.adopt_target ha hu hr hd, hname]
    · left
      rw [Catalog.adopt_of_ne ha hu, hname]
      intro r hr hd
      refine ⟨fun he => hsrc ⟨r, hr, hd, he.symm⟩, fun he => ?_⟩
      have hfree := (Catalog.due_eq_true.mp hd).2
      rw [← he, hname] at hfree
      cases hfree
  · refine Catalog.adopt_of_ne ha hu fun m hm hd => ⟨(ha r m hr hm).1, fun he => ?_⟩
    have hfree := (Catalog.due_eq_true.mp hd).2
    rw [← he] at hfree
    rw [hfree] at hsome
    cases hsome

theorem adopt_gone (hr : r ∈ rs) (h : c r.source = none) : c.adopt rs r.source = none := by
  rw [Catalog.adopt_eq ha hu]
  exact Catalog.gone_stays ha hr (fun m hm => List.mem_of_mem_filter hm) h

theorem adopt_taken (hr : r ∈ rs) (h : (c r.target).isSome) : (c.adopt rs r.target).isSome := by
  rw [Catalog.adopt_eq ha hu]
  exact Catalog.taken_stays ha hr (fun m hm => List.mem_of_mem_filter hm)
    (hu.sublist List.filter_sublist) (fun m hm => (List.mem_filter.mp hm).2) (.inl h)

end Catalogs

omit [DecidableEq ν] in
theorem rowsPreserved_refl : RowsPreserved rs c c := ⟨fun _ _ h => .inl h, fun _ _ _ => rfl⟩

/-! ### Runs of replicas -/

omit [DecidableEq ι] [Fintype ι] [DecidableEq ν] in
theorem source_injOn (hu : rs.Pairwise fun a b => a.source ≠ b.source) {m r : Rename ν} (hm : m ∈ rs)
    (hr : r ∈ rs) (h : m.source = r.source) : m = r :=
  List.inj_on_of_nodup_map (List.pairwise_map.mpr hu) hm hr h

omit [DecidableEq ι] [Fintype ι] in
/-- A replica is in nobody's way: it renames to the same names. -/
theorem Inv.unrivalled (hc : Coherent fun _ : ι => rs) (h : Inv (fun _ => rs) s) (a : Action ι) :
    Unrivalled s a := by
  have hsame : ∀ i j, ∀ r ∈ s.awaited j, ∀ m ∈ (s.server.sessions i).moves,
      m.source = r.source → m.target = r.target := by
    intro i j r hr m hm he
    have hmem : r ∈ rs := by
      have hj := h.fits j
      simp only [State.awaited] at hr
      cases hrun : s.runs j with
      | adopting r' rest stage =>
        rw [hrun] at hj
        obtain ⟨done, hrs, -⟩ := hj
        have hr' : r = r' := by
          rw [hrun] at hr
          split at hr <;> simp_all
        rw [hr', hrs]
        simp
      | _ => simp [hrun] at hr
    rw [source_injOn (hc.once i) (h.fits i |>.moves hm).1 hmem he]
  cases a with
  | query i => exact fun _ j => hsame i j
  | fails i => trivial
  | commitLost i => exact fun _ j => hsame i j

theorem replicas_unrivalled {ok : State ι ν τ → Action ι → Prop} (hc : Coherent fun _ : ι => rs)
    (h : ReachUnder (step fun _ => rs) ok (start c) s) :
    ReachUnder (step fun _ => rs) (fun s a => Unrivalled s a ∧ ok s a) (start c) s := by
  induction h with
  | start => exact .start
  | tail _ ha hs ih =>
    have hinv := inv_of_reachUnder hc (ih.mono fun _ _ hok => hok.1)
    exact .tail ih ⟨hinv.unrivalled hc _, ha⟩ hs

theorem replicas_inv {ok : State ι ν τ → Action ι → Prop} (hc : Coherent fun _ : ι => rs)
    (h : ReachUnder (step fun _ => rs) ok (start c) s) : Inv (fun _ => rs) s :=
  inv_of_reachUnder hc ((replicas_unrivalled hc h).mono fun _ _ hok => hok.1)

/-- The committed catalogue changes at once, by a `COMMIT` that adopts every due rename. -/
theorem Inv.step_committed {a : Action ι} (hc : Coherent fun _ : ι => rs) (h : Inv (fun _ => rs) s)
    (hs : step (fun _ => rs) s a = some s') : s'.server.committed = s.server.committed ∨
      s.runs a.run = .committing ∧ (s'.runs a.run = .ended ∨ a = .commitLost a.run) ∧
        s'.server.committed = s.server.committed.adopt rs := by
  rcases Migration.step_committed hs with heq | ⟨hcom, hend, hview⟩
  · exact .inl heq
  · exact .inr ⟨hcom, hend, hview.trans (h.view_committing hc hcom)⟩

/-! ### Failures -/

/-- The run is to throw, or has thrown, the failure of a query of its own. -/
def Doomed (s : State ι ν τ) (i : ι) : Prop := s.runs i = .rollingBack .failed ∨ s.runs i = .threw .failed

/-- The run is about to look whether the rename that failed was done by another replica. -/
def Rechecking (s : State ι ν τ) (i : ι) (r : Rename ν) : Prop :=
  ∃ rest, s.runs i = .adopting r rest (.rollbackTo .failed) ∨
    s.runs i = .adopting r rest (.recheckSource .failed) ∨ s.runs i = .adopting r rest (.recheckDest .failed)

/-- The table is gone from its old name and there is one under the new name. -/
def Completed (c : Catalog ν τ) (r : Rename ν) : Prop := c r.source = none ∧ (c r.target).isSome

/-- A query that fails makes its run throw, unless it is a rename or the release of its
savepoint. -/
theorem fails_cases (h : Inv (fun _ => rs) s) (hs : step (fun _ => rs) s (.fails i) = some s') :
    Doomed s' i ∨ ∃ r rest stage, s.runs i = .adopting r rest stage ∧
      (stage = .alter ∨ stage = .releaseRenamed) ∧ Rechecking s' i r := by
  have hself : ∀ x run, (s.put i x run).runs i = run := fun x run => Function.update_self ..
  cases transition_of_step hs with
  | unconnected => exact .inl (.inr (hself ..))
  | caught hrun hstage => exact .inr ⟨_, _, _, hrun, hstage, _, .inl (hself ..)⟩
  | uncaught => exact .inl (.inl (hself ..))
  | rollbackFailed hrun =>
    have hi := h.fits i
    rw [hrun] at hi
    rw [hi.1]
    exact .inl (.inr (hself ..))

theorem doomed_step {a : Action ι} (hs : step (fun _ => rs) s a = some s') (h : Doomed s i) : Doomed s' i := by
  by_cases ha : i = a.run
  · subst ha
    have hself : ∀ j x run, (s.put j x run).runs j = run := fun j x run => Function.update_self ..
    rcases h with h | h <;> cases a <;>
      simp only [step, adoptLegacyMigrationTables, queryFails, Action.run] at h hs <;>
      simp only [h, Option.some.injEq, reduceCtorEq, if_false] at hs <;> subst hs <;> exact .inr (hself ..)
  · have hrun := (step_rank hs).2 i ha
    simpa only [Doomed, hrun] using h

omit [DecidableEq ι] [Fintype ι] [DecidableEq ν] in
theorem Doomed.threw (h : Doomed t i) (hend : (t.runs i).finished = true) : t.runs i = .threw .failed := by
  rcases h with hd | hd
  · simp [hd, Run.finished] at hend
  · exact hd

theorem doomed_outcome (ht : Reach (step fun _ => rs) s t) (h : Doomed s i)
    (hend : (t.runs i).finished = true) : t.runs i = .threw .failed :=
  (ht.invariant (P := fun t => Doomed t i) h fun _ _ _ hd _ hs => doomed_step hs hd).threw hend

theorem completed_step {a : Action ι} (hc : Coherent fun _ : ι => rs) (hinv : Inv (fun _ => rs) s)
    (hs : step (fun _ => rs) s a = some s') (hr : r ∈ rs) (h : Completed s.server.committed r) :
    Completed s'.server.committed r := by
  rcases hinv.step_committed hc hs with heq | ⟨-, -, heq⟩
  · rw [heq]
    exact h
  · rw [heq]
    exact ⟨adopt_gone (hc.apart_of a.run) (hc.once a.run) hr h.1,
      adopt_taken (hc.apart_of a.run) (hc.once a.run) hr h.2⟩

/-- Looking again ends with the rename done by another replica, or with the failure. -/
theorem rechecking_step {a : Action ι} (hc : Coherent fun _ : ι => rs) (hinv : Inv (fun _ => rs) s)
    (hs : step (fun _ => rs) s a = some s') (h : Rechecking s i r) :
    Doomed s' i ∨ Rechecking s' i r ∨ Completed s'.server.committed r := by
  obtain ⟨rest, h⟩ := h
  by_cases ha : i = a.run
  · subst ha
    have hself : ∀ x run, (s.put a.run x run).runs a.run = run := fun x run => Function.update_self ..
    have hfits := hinv.fits a.run
    cases a with
    | query i =>
      simp only [step, adoptLegacyMigrationTables, Action.run] at h hs hfits hself ⊢
      rcases h with h | h | h <;> simp only [h, Option.map_eq_some_iff] at hs hfits <;>
        obtain ⟨out, hout, rfl⟩ := hs <;> simp only [renameLegacyTableInTransaction] at hout
      · cases hout
        exact .inr (.inl ⟨rest, .inr (.inl (hself ..))⟩)
      · split at hout <;> cases hout
        · exact .inl (.inl (hself ..))
        · exact .inr (.inl ⟨rest, .inr (.inr (hself ..))⟩)
      · obtain ⟨done, hrs, hx, hgone, -⟩ := hfits
        have hview : s.server.view i r.target = s.server.committed r.target := by
          rw [Server.view, hx]
          exact (view_current (hc.apart_of i) (hc.once i) hrs).2
        split at hout <;> cases hout
        · rename_i ht
          rw [tableExists, hview] at ht
          exact .inr (.inr ⟨hgone, ht⟩)
        · exact .inl (.inl (hself ..))
    | fails i =>
      rcases h with h | h | h <;> simp only [step, queryFails, Action.run] at h hs hself ⊢ <;>
        simp only [h, Option.some.injEq] at hs <;> subst hs <;> exact .inl (.inl (hself ..))
    | commitLost i =>
      rcases h with h | h | h <;> simp [step, Action.run] at h hs <;> simp [h] at hs
  · have hrun := (step_rank hs).2 i ha
    exact .inr (.inl ⟨rest, by simpa only [hrun] using h⟩)

/-- A run one of whose queries has failed for a reason of its own throws that failure, unless the
query was a rename that another replica had done when the run looked again. -/
theorem failure_outcome (hc : Coherent fun _ : ι => rs) (h : Inv (fun _ => rs) s)
    (hs : step (fun _ => rs) s (.fails i) = some s') (ht : Reach (step fun _ => rs) s' t)
    (hend : (t.runs i).finished = true) : t.runs i = .threw .failed ∨
      ∃ r rest stage, s.runs i = .adopting r rest stage ∧ (stage = .alter ∨ stage = .releaseRenamed) ∧
        Completed t.server.committed r := by
  have hinv' : Inv (fun _ => rs) s' := inv_step hc h (h.unrivalled hc _) hs
  rcases fails_cases h hs with hd | ⟨r, rest, stage, hrun, hstage, hre⟩
  · exact .inl (doomed_outcome ht hd hend)
  · have hr : r ∈ rs := by
      have hi := h.fits i
      rw [hrun] at hi
      obtain ⟨done, hrs, -⟩ := hi
      simp [hrs]
    have hafter : Inv (fun _ => rs) t ∧
        (Doomed t i ∨ Rechecking t i r ∨ Completed t.server.committed r) := by
      refine ht.invariant (P := fun t => Inv (fun _ => rs) t ∧
        (Doomed t i ∨ Rechecking t i r ∨ Completed t.server.committed r)) ⟨hinv', .inr (.inl hre)⟩ ?_
      rintro u a u' ⟨hinv, hu⟩ - hs
      refine ⟨inv_step hc hinv (hinv.unrivalled hc _) hs, ?_⟩
      rcases hu with hd | hre | hcomp
      · exact .inl (doomed_step hs hd)
      · exact rechecking_step hc hinv hs hre
      · exact .inr (.inr (completed_step hc hinv hs hr hcomp))
    rcases hafter.2 with hd | ⟨rest', hre⟩ | hcomp
    · exact .inl (hd.threw hend)
    · rcases hre with hre | hre | hre <;> simp [hre, Run.finished] at hend
    · exact .inr ⟨r, rest, stage, hrun, hstage, hcomp⟩

/-! ### The catalogue -/

/-- A run ends by its `COMMIT`. -/
theorem ended_step {a : Action ι} (hs : step (fun _ => rs) s a = some s') (h : s'.runs i = .ended) :
    s.runs i = .ended ∨ s.runs i = .committing ∧ s'.server.committed = s.server.view i := by
  by_cases ha : i = a.run
  · subst ha
    have hput : ∀ j x run, (s.put j x run).runs j = .ended → run = .ended := by
      intro j x run he
      simpa [State.put] using he
    cases transition_of_step hs with
    | commits hrun => exact .inr ⟨hrun, rfl⟩
    | answered _ ha =>
      have hq := counterpart_answer ha
      rw [hput _ _ _ h] at hq
      cases hq
    | begins =>
      have hq := counterpart_next rs
      rw [hput _ _ _ h] at hq
      cases hq
    | commitLost => simp [State.commit, Action.run] at h
    | _ => cases hput _ _ _ h
  · have hrun := (step_rank hs).2 i ha
    exact .inl (hrun ▸ h)

/-- The legacy tables are adopted once for all replicas. -/
theorem committed_cases (hc : Coherent fun _ : ι => rs) (h : Reach (step fun _ => rs) (start c) s) :
    (s.server.committed = c ∨ s.server.committed = c.adopt rs) ∧
      ∀ i, s.runs i = .ended → s.server.committed = c.adopt rs := by
  refine h.invariant_from (Q := Inv fun _ => rs) (P := fun s =>
    (s.server.committed = c ∨ s.server.committed = c.adopt rs) ∧
      ∀ i, s.runs i = .ended → s.server.committed = c.adopt rs) (fun _ hr => replicas_inv hc hr)
    ⟨.inl rfl, fun i hi => by cases hi⟩ ?_
  rintro u a u' hinv ⟨hcases, hended⟩ - hs
  have hadopt : ∀ i : ι, u.server.committed.adopt rs = c.adopt rs := by
    intro i
    rcases hcases with heq | heq <;> rw [heq]
    exact Catalog.adopt_adopt (hc.apart_of i) (hc.once i)
  have hstep : u'.server.committed = u.server.committed ∨ u'.server.committed = c.adopt rs :=
    (hinv.step_committed hc hs).imp_right fun hcom => hcom.2.2.trans (hadopt a.run)
  refine ⟨?_, fun i hi => ?_⟩
  · rcases hstep with heq | heq
    · rw [heq]
      exact hcases
    · exact .inr heq
  · rcases ended_step hs hi with hi | ⟨hi, hview⟩
    · rcases hstep with heq | heq
      · rw [heq, hended i hi]
      · exact heq
    · rw [hview, hinv.view_committing hc hi, hadopt i]

/-- What concurrent runs of replicas do to a catalogue. -/
structure AdoptsOnce (ι : Type*) [DecidableEq ι] [Fintype ι] (rs : List (Rename ν)) (c : Catalog ν τ) :
    Prop where
  /-- A run whose own queries fail only as the catalogue makes them fail does not throw. -/
  ends : ∀ (i : ι) s, ReachUnder (step fun _ => rs) (fun _ a => a ≠ .fails i ∧ a ≠ .commitLost i) (start c) s →
    (s.runs i).failing = false
  /-- As long as a run is unfinished, some run's query is answered. -/
  progress : ∀ s : State ι ν τ, Reach (step fun _ => rs) (start c) s → ∀ i, (s.runs i).finished = false →
    ∃ j, (step (fun _ => rs) s (.query j)).isSome
  /-- No run makes more than a fixed number of queries. -/
  bounded : ∀ (as : List (Action ι)) s, exec (step fun _ => rs) (start c) as = some s → ∀ i,
    as.countP (fun a => a.run = i) ≤ 10 * rs.length + 4
  /-- Once a run has ended, the catalogue is the one a single run leaves; until then it is that one
  or the initial one. -/
  single : ∀ i : ι, ∃ t : State ι ν τ, ReachUnder (step fun _ => rs) (fun _ a => a = .query i) (start c) t ∧
    t.runs i = .ended ∧ ∀ s : State ι ν τ, Reach (step fun _ => rs) (start c) s →
      (s.server.committed = c ∨ s.server.committed = t.server.committed) ∧
      ∀ j, s.runs j = .ended → s.server.committed = t.server.committed
  rows : ∀ s : State ι ν τ, Reach (step fun _ => rs) (start c) s → RowsPreserved rs c s.server.committed
  /-- The catalogue changes only when a run's `COMMIT` takes effect, and by all its due renames. -/
  atomic : ∀ (s s' : State ι ν τ) a, Reach (step fun _ => rs) (start c) s →
    step (fun _ => rs) s a = some s' → s'.server.committed = s.server.committed ∨
      s.runs a.run = .committing ∧ (s'.runs a.run = .ended ∨ a = .commitLost a.run) ∧
        s'.server.committed = s.server.committed.adopt rs
  /-- A run with a failure of its own throws it, unless another replica did the rename that failed. -/
  failures : ∀ (s s' t : State ι ν τ) i, Reach (step fun _ => rs) (start c) s →
    step (fun _ => rs) s (.fails i) = some s' → Reach (step fun _ => rs) s' t → (t.runs i).finished = true →
      t.runs i = .threw .failed ∨ ∃ r rest stage, s.runs i = .adopting r rest stage ∧
        (stage = .alter ∨ stage = .releaseRenamed) ∧ Completed t.server.committed r
  /-- A run whose `COMMIT` is lost throws. -/
  lost : ∀ (s s' t : State ι ν τ) i, Reach (step fun _ => rs) (start c) s →
    step (fun _ => rs) s (.commitLost i) = some s' → Reach (step fun _ => rs) s' t →
      (t.runs i).finished = true → t.runs i = .threw .failed
  /-- Further runs change nothing. -/
  again : ∀ (s t : State ι ν τ) i, Reach (step fun _ => rs) (start c) s → s.runs i = .ended →
    Reach (step fun _ => rs) (start s.server.committed) t → t.server.committed = s.server.committed

omit [DecidableEq ι] [Fintype ι] [DecidableEq ν] in
theorem Coherent.replicas (ha : Apart (· ∈ rs)) (hu : rs.Pairwise fun a b => a.source ≠ b.source) :
    Coherent fun _ : ι => rs where
  apart := fun r r' ⟨_, h⟩ ⟨_, h'⟩ => ha r r' h h'
  once _ := hu

theorem adoptsOnce (ha : Apart (· ∈ rs)) (hu : rs.Pairwise fun a b => a.source ≠ b.source) :
    AdoptsOnce ι rs c := by
  have hc : Coherent fun _ : ι => rs := .replicas ha hu
  exact {
    ends i s h := not_failing hc (replicas_unrivalled hc h)
    progress s h i hi := (replicas_inv hc h).progress hc (fun _ _ => rfl) hi
    bounded as s h i := count_le_rank h i
    single i := by
      have halone : Alone (start (ι := ι) c) i := ⟨fun _ _ => rfl, fun _ _ => rfl⟩
      refine ⟨_, (halone.toEnd hc rfl).mono fun _ _ hok => hok.2, Function.update_self .., ?_⟩
      intro s h
      rw [Alone.commit hc]
      exact committed_cases hc h
    rows s h := by
      rcases (committed_cases hc h).1 with heq | heq <;> rw [heq]
      · exact rowsPreserved_refl
      · exact rowsPreserved_adopt ha hu
    atomic s s' a h hs := (replicas_inv hc h).step_committed hc hs
    failures s s' t i h hs ht hend := failure_outcome hc (replicas_inv hc h) hs ht hend
    lost s s' t i _ hs ht hend := by
      simp only [step, Option.ite_none_right_eq_some, Option.some.injEq] at hs
      obtain ⟨-, rfl⟩ := hs
      exact doomed_outcome ht (.inl (Function.update_self ..)) hend
    again s t i h hi ht := by
      have hadopted := (committed_cases hc h).2 i hi
      have hidem : s.server.committed.adopt rs = s.server.committed := by
        rw [hadopted]
        exact Catalog.adopt_adopt ha hu
      rcases (committed_cases hc ht).1 with heq | heq
      · exact heq
      · exact heq.trans hidem }

end Replicas

/-- Two replicas on one database. -/
def twoReplicas (_ : Fin 2) : List (Rename String) :=
  renamesOf id "finp2p_vanilla_service_migrations" "test_schema"

/-- A replica whose rename failed for a reason of its own ends, since the other one did the rename;
a replica whose `COMMIT` is lost throws with its renames in effect; and where the new name of one
table is the legacy name of the other, the rows of the first end up under the new name of the
second. -/
theorem adoption_exceptions :
    (∃ s s' t, Reach (step twoReplicas) (start oneLegacyTable) s ∧ step twoReplicas s (.fails 0) = some s' ∧
      Reach (step twoReplicas) s' t ∧ t.runs 0 = .ended) ∧
    (∃ t, Reach (step twoReplicas) (start oneLegacyTable) t ∧ t.runs 0 = .threw .failed ∧
      t.runs 1 = .connecting ∧ t.server.committed "test_schema_migrations" = some 1) ∧
    ∃ t, Reach (step fun _ : Fin 1 => renamesOf id "finp2p_vanilla_service_migrations" "finp2p_vanilla_service")
        (start oneLegacyTable) t ∧
      ¬ RowsPreserved (renamesOf id "finp2p_vanilla_service_migrations" "finp2p_vanilla_service")
        oneLegacyTable t.server.committed := by
  refine ⟨?_, ?_, ?_⟩
  · -- replica 0 comes to its rename, replica 1 adopts both tables, and then the rename fails
    have hrun : (exec (step twoReplicas) (start oneLegacyTable)
        (List.replicate 5 (.query 0) ++ List.replicate 10 (.query 1))).bind (fun s =>
          (step twoReplicas s (.fails 0)).bind fun s' =>
            (exec (step twoReplicas) s' (List.replicate 7 (.query 0))).map fun t => t.runs 0) =
        some .ended := by decide
    obtain ⟨s, hs, hrun⟩ := Option.bind_eq_some_iff.mp hrun
    obtain ⟨s', hs', hrun⟩ := Option.bind_eq_some_iff.mp hrun
    obtain ⟨t, ht, hend⟩ := Option.map_eq_some_iff.mp hrun
    exact ⟨s, s', t, reach_of_exec hs, hs', reach_of_exec ht, hend⟩
  · have hrun : (exec (step twoReplicas) (start oneLegacyTable)
        (List.replicate 9 (.query 0) ++ [.commitLost 0, .query 0])).map
          (fun t => (t.runs 0, t.runs 1, t.server.committed "test_schema_migrations")) =
        some (.threw .failed, .connecting, some 1) := by decide
    obtain ⟨t, ht, hend⟩ := Option.map_eq_some_iff.mp hrun
    obtain ⟨h0, hrest⟩ := Prod.mk.inj hend
    obtain ⟨h1, hrows⟩ := Prod.mk.inj hrest
    exact ⟨t, reach_of_exec ht, h0, h1, hrows⟩
  · have hrun : (exec (step fun _ : Fin 1 =>
          renamesOf id "finp2p_vanilla_service_migrations" "finp2p_vanilla_service") (start oneLegacyTable)
          (List.replicate 13 (.query 0))).map (fun t =>
            (t.server.committed "finp2p_ethereum_adapater_migrations",
              t.server.committed "finp2p_vanilla_service_migrations")) = some (none, none) := by decide
    obtain ⟨t, ht, hnone⟩ := Option.map_eq_some_iff.mp hrun
    obtain ⟨hold, hnew⟩ := Prod.mk.inj hnone
    refine ⟨t, reach_of_exec ht, fun hrows => ?_⟩
    rcases hrows.1 "finp2p_ethereum_adapater_migrations" 1 rfl with hsome | ⟨r, hr, hsrc, -, hsome⟩
    · rw [hold] at hsome
      cases hsome
    · simp only [renamesOf, List.mem_cons, List.not_mem_nil, or_false] at hr
      rcases hr with rfl | rfl
      · have htarget : id ("finp2p_vanilla_service" ++ "_migrations") = "finp2p_vanilla_service_migrations" := by
          decide
        rw [htarget, hnew] at hsome
        cases hsome
      · exact absurd hsrc (by decide)

theorem replicas_adopt_once {ι ν τ : Type*} [DecidableEq ι] [Fintype ι] [DecidableEq ν]
    (identifier : String → ν) (vanillaMigrationsTable ledgerSchema : String)
    (hn : [identifier "finp2p_ethereum_adapater_migrations", identifier vanillaMigrationsTable,
      identifier (ledgerSchema ++ "_migrations"),
      identifier (ledgerSchema ++ "_" ++ vanillaMigrationsTable)].Nodup) (c : Catalog ν τ) :
    AdoptsOnce ι (renamesOf identifier vanillaMigrationsTable ledgerSchema) c := by
  simp only [List.nodup_cons, List.mem_cons, List.not_mem_nil, or_false, not_or, not_false_eq_true,
    List.nodup_nil, and_true] at hn
  obtain ⟨⟨hlegacy, heth, hethVanilla⟩, ⟨hvanillaEth, hvanilla⟩, hnew⟩ := hn
  refine adoptsOnce ?_ (by simpa [renamesOf] using hlegacy)
  intro r r' hr hr'
  simp only [renamesOf, List.mem_cons, List.not_mem_nil, or_false] at hr hr'
  rcases hr with rfl | rfl <;> rcases hr' with rfl | rfl
  · exact ⟨Ne.symm heth, fun _ => rfl⟩
  · exact ⟨Ne.symm hvanillaEth, fun h => absurd h hnew⟩
  · exact ⟨Ne.symm hethVanilla, fun h => absurd h.symm hnew⟩
  · exact ⟨Ne.symm hvanilla, fun _ => rfl⟩

theorem twoReplicas_adopt_once : AdoptsOnce (Fin 2)
    (renamesOf id "finp2p_vanilla_service_migrations" "test_schema") oneLegacyTable :=
  replicas_adopt_once id "finp2p_vanilla_service_migrations" "test_schema" (by decide) oneLegacyTable

end FinP2PAdapter.Migration
