import FinP2PAdapter.Migration.Interleavings

/-! Every adoption run comes to its end: each step is a query of some run and leaves that run
fewer to make, and while a run is unfinished some run's query is answered. A rename waits only for
a transaction that holds its table, and the transactions take the tables in one common order. -/

namespace FinP2PAdapter.Migration

open Renames Machine

section Progress

variable {ι ν τ : Type*} [DecidableEq ι] [Fintype ι] [DecidableEq ν]
  {renames : ι → List (Rename ν)} {x : Session ν} {r : Rename ν} {s s' : State ι ν τ} {i : ι}

def Stage.rank : Stage → ℕ
  | .sourceCheck => 9
  | .destCheck _ => 8
  | .savepoint => 7
  | .alter => 6
  | .releaseRenamed => 5
  | .rollbackTo _ => 4
  | .recheckSource _ => 3
  | .recheckDest _ => 2
  | .releaseRecovered => 1

/-- A bound on the queries a run still makes. -/
def Run.rank (total : ℕ) : Run ν → ℕ
  | .connecting => 10 * total + 4
  | .beginning => 10 * total + 3
  | .adopting _ rest stage => 10 * rest.length + stage.rank + 2
  | .committing => 2
  | .rollingBack _ => 1
  | .ended | .threw _ => 0

omit [DecidableEq ν] in
@[simp] theorem Run.rank_adopting (total : ℕ) (rest : List (Rename ν)) (stage : Stage) :
    (Run.adopting r rest stage).rank total = 10 * rest.length + stage.rank + 2 := rfl

omit [DecidableEq ν] in
@[simp] theorem Run.rank_connecting (total : ℕ) :
    (Run.connecting : Run ν).rank total = 10 * total + 4 := rfl

omit [DecidableEq ν] in
@[simp] theorem Run.rank_beginning (total : ℕ) :
    (Run.beginning : Run ν).rank total = 10 * total + 3 := rfl

omit [DecidableEq ν] in
@[simp] theorem Run.rank_committing (total : ℕ) : (Run.committing : Run ν).rank total = 2 := rfl

omit [DecidableEq ν] in
@[simp] theorem Run.rank_threw (total : ℕ) (e : QueryError) :
    (Run.threw e : Run ν).rank total = 0 := rfl

omit [DecidableEq ν] in
@[simp] theorem Run.rank_rollingBack (total : ℕ) (e : QueryError) :
    (Run.rollingBack e : Run ν).rank total = 1 := rfl

omit [DecidableEq ν] in
theorem rank_next (total : ℕ) (rest : List (Rename ν)) : (next rest).rank total ≤ 10 * rest.length + 2 := by
  cases rest with
  | nil => simp [next, Run.rank]
  | cons r rest => simp [next, Run.rank, Stage.rank]; omega

theorem rank_answer {rest : List (Rename ν)} {stage : Stage} {out : Session ν × Run ν} (total : ℕ)
    (ha : renameLegacyTableInTransaction s.server i r rest x stage = some out) :
    out.2.rank total < (Run.adopting r rest stage).rank total := by
  have hnext := rank_next total rest
  cases stage <;> simp only [renameLegacyTableInTransaction] at ha <;> (try split at ha) <;>
    cases ha <;> simp only [Run.rank_adopting, Run.rank_rollingBack, Stage.rank] <;> omega

/-- Each step is one query of one run, and leaves that run fewer. -/
theorem step_rank {a : Action ι} (hs : step renames s a = some s') :
    (s'.runs a.run).rank (renames a.run).length < (s.runs a.run).rank (renames a.run).length ∧
      ∀ j, j ≠ a.run → s'.runs j = s.runs j := by
  have hput : ∀ i x run, run.rank (renames i).length < (s.runs i).rank (renames i).length →
      ((s.put i x run).runs i).rank (renames i).length < (s.runs i).rank (renames i).length ∧
        ∀ j, j ≠ i → (s.put i x run).runs j = s.runs j := by
    intro i x run hlt
    refine ⟨?_, fun j hj => Function.update_of_ne hj ..⟩
    simpa [State.put] using hlt
  have hcommit : ∀ i run, s.runs i = .committing → run.rank (renames i).length ≤ 1 →
      ((s.commit i run).runs i).rank (renames i).length < (s.runs i).rank (renames i).length ∧
        ∀ j, j ≠ i → (s.commit i run).runs j = s.runs j := by
    intro i run hrun hle
    refine ⟨?_, fun j hj => Function.update_of_ne hj ..⟩
    simp only [State.commit, Function.update_self, hrun, Run.rank_committing]
    omega
  cases transition_of_step hs with
  | @connects i hrun => exact hput i _ _ (by simp [hrun])
  | @begins i hrun =>
    have hnext := rank_next (renames i).length (renames i)
    refine hput i _ _ ?_
    rw [hrun, Run.rank_beginning]
    omega
  | answered hrun ha => exact hput _ _ _ (hrun ▸ rank_answer _ ha)
  | commits hrun => exact hcommit _ _ hrun (by simp [Run.rank])
  | @rolledBack i e hrun | @rollbackFailed i e hrun => exact hput i _ _ (by simp [hrun])
  | @unconnected i hrun => exact hput i _ _ (by simp [hrun])
  | @caught i r rest stage hrun hstage =>
    refine hput i _ _ ?_
    rcases hstage with rfl | rfl <;> simp [hrun, Stage.rank]
  | @uncaught i hrun =>
    refine hput i _ _ ?_
    rcases hrun with hrun | hrun | ⟨r, rest, stage, hrun⟩ <;> simp [hrun]
  | commitLost hrun => exact hcommit _ _ hrun le_rfl

/-- However the runs interleave, none of them makes more queries than its rank. -/
theorem count_le_rank {as : List (Action ι)} (h : exec (step renames) s as = some s') (i : ι) :
    as.countP (fun a => a.run = i) ≤ (s.runs i).rank (renames i).length := by
  induction as generalizing s with
  | nil => simp
  | cons a as ih =>
    simp only [exec, Option.bind_eq_some_iff] at h
    obtain ⟨u, hu, h⟩ := h
    obtain ⟨hlt, hothers⟩ := step_rank hu
    have hrest := ih h
    rw [List.countP_cons]
    by_cases ha : a.run = i
    · rw [← ha] at hrest ⊢
      simp only [decide_true, if_true]
      omega
    · rw [hothers i (Ne.symm ha)] at hrest
      simpa [ha] using hrest

theorem isSome_answer {rest : List (Rename ν)} {stage : Stage}
    (h : stage = .alter → s.server.alter i r ≠ .waits) :
    (renameLegacyTableInTransaction s.server i r rest x stage).isSome := by
  cases stage with
  | alter =>
    simp only [renameLegacyTableInTransaction]
    cases hres : s.server.alter i r with
    | waits => exact absurd hres (h rfl)
    | _ => rfl
  | destCheck sourceExists => simp only [renameLegacyTableInTransaction]; split <;> rfl
  | recheckSource e => simp only [renameLegacyTableInTransaction]; split <;> rfl
  | recheckDest e => simp only [renameLegacyTableInTransaction]; split <;> rfl
  | _ => rfl

/-- An unfinished run's query is answered, unless it is a rename that waits. -/
theorem isSome_query (hrun : (s.runs i).finished = false)
    (h : ∀ r rest, s.runs i = .adopting r rest .alter → s.server.alter i r ≠ .waits) :
    (step renames s (.query i)).isSome := by
  simp only [step, adoptLegacyMigrationTables]
  cases hi : s.runs i with
  | adopting r rest stage =>
    simp only [Option.isSome_map]
    exact isSome_answer fun hst => h r rest (by rw [hi, hst])
  | ended => simp [hi, Run.finished] at hrun
  | threw e => simp [hi, Run.finished] at hrun
  | _ => rfl

omit [DecidableEq ν] in
/-- A run that is past the table another one is at has fewer of the common tables ahead. -/
theorem length_lt_of_past {before after before' after' : List (Rename ν)} {r r' m : Rename ν}
    (hmap : (before ++ r :: after).map Rename.source = (before' ++ r' :: after').map Rename.source)
    (hu : (before ++ r :: after).Pairwise fun a b => a.source ≠ b.source)
    (hm : m ∈ before') (hsrc : m.source = r.source) : after'.length < after.length := by
  by_contra hle
  have hlen := congrArg List.length hmap
  simp only [List.length_map, List.length_append, List.length_cons] at hlen
  have hshort : (before'.map Rename.source).length ≤ (before.map Rename.source).length := by
    simp only [List.length_map]
    omega
  have hpre : before'.map Rename.source <+: before.map Rename.source := by
    refine List.prefix_of_prefix_length_le ?_ (List.prefix_append _ ((r :: after).map Rename.source)) hshort
    rw [← List.map_append, hmap, List.map_append]
    exact List.prefix_append _ _
  obtain ⟨m', hm', he⟩ := List.mem_map.mp (hpre.subset (List.mem_map_of_mem hm))
  exact (List.pairwise_append.mp hu).2.2 m' hm' r (.head _) (he.trans hsrc)

/-- As long as a run is unfinished, some run's query is answered: a rename waits only for a run
that is further along the common list of tables. -/
theorem Inv.progress (hc : Coherent renames) (h : Inv renames s)
    (htables : ∀ i j, (renames i).map Rename.source = (renames j).map Rename.source)
    (hrun : (s.runs i).finished = false) : ∃ j, (step renames s (.query j)).isSome := by
  generalize hn : (s.runs i).rank (renames i).length = n
  induction n using Nat.strong_induction_on generalizing i with
  | _ n ih =>
    by_cases hwait : ∃ r rest, s.runs i = .adopting r rest .alter ∧ s.server.alter i r = .waits
    · obtain ⟨r, rest, hi, hw⟩ := hwait
      obtain ⟨j, -, m, hm, hmr⟩ := Server.alter_eq_waits hw
      have hfi := h.fits i
      have hfj := h.fits j
      rw [hi] at hfi
      obtain ⟨done, hrs, -⟩ := hfi
      have hsrc : m.source = r.source := by
        rcases hmr with he | he
        · exact he
        · exact (hc.apart m r ⟨j, (hfj.moves hm).1⟩ ⟨i, by simp [hrs]⟩).2 he
      by_cases hjwait : ∃ r' rest', s.runs j = .adopting r' rest' .alter ∧ s.server.alter j r' = .waits
      · -- the holder waits too, but it is past the table that run `i` is at
        obtain ⟨r', rest', hj, -⟩ := hjwait
        rw [hj] at hfj
        obtain ⟨done', hrs', hx, -⟩ := hfj
        rw [hx] at hm
        have hmap := htables i j
        have hu := hc.once i
        rw [hrs, hrs'] at hmap
        rw [hrs] at hu
        have hlt := length_lt_of_past hmap hu (List.mem_of_mem_filter hm) hsrc
        rw [hi, Run.rank_adopting] at hn
        refine ih ((s.runs j).rank (renames j).length) ?_ (by simp [hj, Run.finished]) rfl
        rw [hj, Run.rank_adopting]
        omega
      · push Not at hjwait
        refine ⟨j, isSome_query ?_ hjwait⟩
        cases hj : s.runs j with
        | ended =>
          rw [hj] at hfj
          rw [show s.server.sessions j = .closed from hfj] at hm
          cases hm
        | threw e =>
          rw [hj] at hfj
          rw [hfj.2] at hm
          cases hm
        | _ => rfl
    · push Not at hwait
      exact ⟨i, isSome_query hrun hwait⟩

end Progress

end FinP2PAdapter.Migration
