import FinP2PAdapter.Migration.LegacyTables

/-! What holds in every interleaving of the adoption runs: a transaction has made just those of
its settled renames that are due in the committed catalogue, no two transactions hold the same
legacy table, and a rename that failed for want of its table failed because its target was there
already. The last needs that no run takes a legacy table under another name while a run is about
to rename it. -/

namespace FinP2PAdapter.Migration

open Renames Machine

section Invariant

variable {ι ν τ : Type*} [DecidableEq ι] [Fintype ι] [DecidableEq ν]

/-- The renames of the runs stay apart, and no run renames a table twice. -/
structure Coherent (renames : ι → List (Rename ν)) : Prop where
  apart : Apart fun r => ∃ i, r ∈ renames i
  once : ∀ i, (renames i).Pairwise fun a b => a.source ≠ b.source

/-- The rename a run is about to make on the strength of having seen its source. -/
def State.awaited (s : State ι ν τ) (j : ι) : Option (Rename ν) :=
  match s.runs j with
  | .adopting r _ (.destCheck true) => if tableExists s.server j r.target then none else some r
  | .adopting r _ .savepoint | .adopting r _ .alter => some r
  | _ => none

/-- No run commits a rename of a table that another run is about to rename to another name. -/
def Unrivalled (s : State ι ν τ) : Action ι → Prop
  | .query i | .commitLost i =>
    s.runs i = .committing → ∀ j, ∀ r ∈ s.awaited j, ∀ m ∈ (s.server.sessions i).moves,
      m.source = r.source → m.target = r.target
  | .fails _ => True

instance (s : State ι ν τ) (a : Action ι) : Decidable (Unrivalled s a) := by
  cases a <;> unfold Unrivalled <;> infer_instance

/-- What a failure says about the catalogue. -/
def Cause (c : Catalog ν τ) (r : Rename ν) : QueryError → Prop
  | .failed => True
  | .noSuchTable => c r.source = none ∧ (c r.target).isSome
  | .duplicateTable => False

/-- The table of a rename is under its old name or under its new one. -/
def InReach (c : Catalog ν τ) (r : Rename ν) : Prop := (c r.source).isSome ∨ (c r.target).isSome

/-- A source that is there can still be renamed. -/
def Free (c : Catalog ν τ) (r : Rename ν) : Prop := (c r.source).isSome → c r.target = none

def StageFits (c : Catalog ν τ) (x : Session ν) (due : List (Rename ν)) (r : Rename ν) : Stage → Prop
  | .sourceCheck => x = ⟨due, []⟩
  | .destCheck sourceExists =>
    x = ⟨due, []⟩ ∧ if sourceExists then InReach c r else c r.source = none
  | .savepoint => x = ⟨due, []⟩ ∧ InReach c r ∧ Free c r
  | .alter => x = ⟨due, [due]⟩ ∧ InReach c r ∧ Free c r
  | .releaseRenamed => x = ⟨due ++ [r], [due]⟩ ∧ c.due r
  | .rollbackTo e => (x = ⟨due, [due]⟩ ∨ x = ⟨due ++ [r], [due]⟩ ∧ c.due r) ∧ Cause c r e
  | .recheckSource e => x = ⟨due, [due]⟩ ∧ Cause c r e
  | .recheckDest e => x = ⟨due, [due]⟩ ∧ c r.source = none ∧ Cause c r e
  | .releaseRecovered => x = ⟨due, [due]⟩ ∧ c r.source = none

/-- The rename a run is about to make, read off the committed catalogue. -/
def Awaits (c : Catalog ν τ) (r : Rename ν) : Run ν → Prop
  | .adopting r' _ (.destCheck true) => r' = r ∧ c r.target = none
  | .adopting r' _ .savepoint | .adopting r' _ .alter => r' = r
  | _ => False

/-- A run's transaction against the committed catalogue. -/
def Fits (c : Catalog ν τ) (rs : List (Rename ν)) (x : Session ν) : Run ν → Prop
  | .connecting | .beginning | .ended => x = .closed
  | .adopting r rest stage =>
    ∃ done, rs = done ++ r :: rest ∧ StageFits c x (done.filter c.due) r stage
  | .committing => x = ⟨rs.filter c.due, []⟩
  | .rollingBack e => e = .failed ∧ ∀ m ∈ x.moves, m ∈ rs ∧ c.due m
  | .threw e => e = .failed ∧ x = .closed

structure Inv (renames : ι → List (Rename ν)) (s : State ι ν τ) : Prop where
  fits : ∀ i, Fits s.server.committed (renames i) (s.server.sessions i) (s.runs i)
  exclusive : ∀ i j, i ≠ j → ∀ m ∈ (s.server.sessions i).moves,
    ∀ m' ∈ (s.server.sessions j).moves, m.source ≠ m'.source

variable {renames : ι → List (Rename ν)} {c : Catalog ν τ} {rs ms : List (Rename ν)} {x : Session ν}
  {run : Run ν} {r m : Rename ν} {s s' : State ι ν τ} {i j : ι}

omit [DecidableEq ι] [Fintype ι] [DecidableEq ν] in
theorem inv_start (c : Catalog ν τ) : Inv renames (start (ι := ι) c) where
  fits _ := rfl
  exclusive i j hij m hm := by cases hm

omit [DecidableEq ι] [Fintype ι] [DecidableEq ν] in
theorem Coherent.apart_of (hc : Coherent renames) (i : ι) : Apart (· ∈ renames i) :=
  fun r r' h h' => hc.apart r r' ⟨i, h⟩ ⟨i, h'⟩

omit [DecidableEq ν] in
/-- A transaction holds what is due of the renames behind it, and perhaps the one it is at. -/
theorem StageFits.moves {due : List (Rename ν)} {stage : Stage} (h : StageFits c x due r stage) :
    x.moves = due ∨ x.moves = due ++ [r] ∧ c.due r = true := by
  cases stage with
  | sourceCheck => exact .inl (congrArg Session.moves h)
  | destCheck sourceExists => exact .inl (congrArg Session.moves h.1)
  | savepoint => exact .inl (congrArg Session.moves h.1)
  | alter => exact .inl (congrArg Session.moves h.1)
  | releaseRenamed => exact .inr ⟨congrArg Session.moves h.1, h.2⟩
  | rollbackTo e =>
    rcases h.1 with hx | ⟨hx, hd⟩
    · exact .inl (congrArg Session.moves hx)
    · exact .inr ⟨congrArg Session.moves hx, hd⟩
  | recheckSource e => exact .inl (congrArg Session.moves h.1)
  | recheckDest e => exact .inl (congrArg Session.moves h.1)
  | releaseRecovered => exact .inl (congrArg Session.moves h.1)

omit [DecidableEq ν] in
/-- What a transaction has renamed is due of its run's renames. -/
theorem Fits.moves (h : Fits c rs x run) (hm : m ∈ x.moves) : m ∈ rs ∧ c.due m = true := by
  have hnil : x = .closed → m ∈ rs ∧ c.due m = true := by
    intro hx
    rw [hx] at hm
    cases hm
  cases run with
  | connecting => exact hnil h
  | beginning => exact hnil h
  | ended => exact hnil h
  | threw e => exact hnil h.2
  | committing =>
    have hx : x = ⟨rs.filter c.due, []⟩ := h
    rw [hx] at hm
    exact List.mem_filter.mp hm
  | rollingBack e => exact h.2 m hm
  | adopting r rest stage =>
    obtain ⟨done, hrs, hst⟩ := h
    have hdone : m ∈ done.filter c.due → m ∈ rs ∧ c.due m = true := by
      intro hm
      have hmem := List.mem_filter.mp hm
      exact ⟨by simp [hrs, hmem.1], hmem.2⟩
    rcases hst.moves with hx | ⟨hx, hd⟩
    · exact hdone (hx ▸ hm)
    · rw [hx] at hm
      rcases List.mem_append.mp hm with hm | hm
      · exact hdone hm
      · rw [List.mem_singleton.mp hm]
        exact ⟨by simp [hrs], hd⟩

omit [DecidableEq ν] in
theorem fits_next (done : List (Rename ν)) {rest : List (Rename ν)} (h : rs = done ++ rest) :
    Fits c rs ⟨done.filter c.due, []⟩ (next rest) := by
  cases rest with
  | nil => simp [next, Fits, h]
  | cons r rest => exact ⟨done, h, rfl⟩

/-- The renames behind a run leave the names of the one it is at alone. -/
theorem view_current {done rest : List (Rename ν)} (ha : Apart (· ∈ rs))
    (hu : rs.Pairwise fun a b => a.source ≠ b.source) (h : rs = done ++ r :: rest) :
    c.renameAll (done.filter c.due) r.source = c r.source ∧
      c.renameAll (done.filter c.due) r.target = c r.target := by
  have hr : r ∈ rs := by simp [h]
  have hin : ∀ m ∈ done.filter c.due, m ∈ rs := by
    intro m hm
    simp [h, (List.mem_filter.mp hm).1]
  have hs : ∀ m ∈ done.filter c.due, r.source ≠ m.source := by
    intro m hm
    rw [h] at hu
    exact ((List.pairwise_append.mp hu).2.2 m (List.mem_filter.mp hm).1 r (.head _)).symm
  exact ⟨Catalog.source_stays ha hr hin hs, Catalog.target_stays ha hr hin hs⟩

/-! ### Another run commits -/

section Commit

variable {S : Rename ν → Prop} (ha : Apart S) (hms : ∀ m ∈ ms, S m)
  (hu : ms.Pairwise fun a b => a.source ≠ b.source) (hdue : ∀ m ∈ ms, c.due m)

include ha hms hu hdue

theorem Cause.commit (hr : S r) {e : QueryError} (h : Cause c r e) : Cause (c.renameAll ms) r e := by
  cases e with
  | failed => trivial
  | noSuchTable =>
    exact ⟨Catalog.gone_stays ha hr hms h.1, Catalog.taken_stays ha hr hms hu hdue (.inl h.2)⟩
  | duplicateTable => exact h

/-- A table stays in reach unless it is taken under another name. -/
theorem InReach.commit (hr : S r) (h : InReach c r)
    (hriv : c r.target = none → ∀ m ∈ ms, m.source = r.source → m.target = r.target) :
    InReach (c.renameAll ms) r := by
  by_cases ht : (c r.target).isSome ∨ ∃ m ∈ ms, m.target = r.target
  · exact .inr (Catalog.taken_stays ha hr hms hu hdue ht)
  · push Not at ht
    have hnone : c r.target = none := by simpa using ht.1
    have hs : ∀ m ∈ ms, r.source ≠ m.source := fun m hm he =>
      ht.2 m hm (hriv hnone m hm he.symm)
    left
    rw [Catalog.source_stays ha hr hms hs]
    exact h.resolve_right (by simp [hnone])

omit hu hdue in
theorem Free.commit (hr : S r) (h : Free c r) : Free (c.renameAll ms) r := by
  intro hsome
  have hs : ∀ m ∈ ms, r.source ≠ m.source := by
    intro m hm he
    have hnone : c.renameAll ms m.source = none :=
      Catalog.renameAll_source (fun m' hm' h' => (ha m' m (hms m' hm') (hms m hm)).1 h'.symm) hm
    rw [he, hnone] at hsome
    cases hsome
  rw [Catalog.target_stays ha hr hms hs]
  exact h (Catalog.isSome_of_renameAll ha hr hms hsome)

theorem filter_due_commit {due : List (Rename ν)} (hS : ∀ r ∈ due, S r)
    (hx : ∀ r ∈ due, c.due r = true → ∀ m ∈ ms, r.source ≠ m.source) :
    due.filter (c.renameAll ms).due = due.filter c.due :=
  List.filter_congr fun r hr => Catalog.due_stays ha (hS r hr) hms hu hdue (hx r hr)

theorem StageFits.commit {due : List (Rename ν)} {rest : List (Rename ν)} {stage : Stage} (hr : S r)
    (hx : ∀ m' ∈ x.moves, ∀ m ∈ ms, m'.source ≠ m.source)
    (hriv : Awaits c r (.adopting r rest stage) → ∀ m ∈ ms, m.source = r.source → m.target = r.target)
    (h : StageFits c x due r stage) : StageFits (c.renameAll ms) x due r stage := by
  have hin : InReach c r → (c r.target = none → Awaits c r (.adopting r rest stage)) →
      InReach (c.renameAll ms) r := fun h haw => h.commit ha hms hu hdue hr fun hn => hriv (haw hn)
  have hheld : x.moves = due ++ [r] → c.due r = true → (c.renameAll ms).due r = true := by
    intro hmoves hd
    rw [Catalog.due_stays ha hr hms hu hdue fun _ => hx r (by simp [hmoves])]
    exact hd
  cases stage with
  | sourceCheck => exact h
  | destCheck sourceExists =>
    refine ⟨h.1, ?_⟩
    cases sourceExists with
    | false => exact Catalog.gone_stays ha hr hms h.2
    | true => exact hin h.2 fun hn => ⟨rfl, hn⟩
  | savepoint => exact ⟨h.1, hin h.2.1 fun _ => rfl, h.2.2.commit ha hms hr⟩
  | alter => exact ⟨h.1, hin h.2.1 fun _ => rfl, h.2.2.commit ha hms hr⟩
  | releaseRenamed => exact ⟨h.1, hheld (congrArg Session.moves h.1) h.2⟩
  | rollbackTo e =>
    refine ⟨h.1.imp_right fun hd => ⟨hd.1, ?_⟩, h.2.commit ha hms hu hdue hr⟩
    exact hheld (congrArg Session.moves hd.1) hd.2
  | recheckSource e => exact ⟨h.1, h.2.commit ha hms hu hdue hr⟩
  | recheckDest e =>
    exact ⟨h.1, Catalog.gone_stays ha hr hms h.2.1, h.2.2.commit ha hms hu hdue hr⟩
  | releaseRecovered => exact ⟨h.1, Catalog.gone_stays ha hr hms h.2⟩

/-- A run that holds none of the committed renames' tables, and awaits none of them under another
name, finds the catalogue as it left it. -/
theorem Fits.commit (hS : ∀ r ∈ rs, S r) (hx : ∀ m' ∈ x.moves, ∀ m ∈ ms, m'.source ≠ m.source)
    (hriv : ∀ r, Awaits c r run → ∀ m ∈ ms, m.source = r.source → m.target = r.target)
    (h : Fits c rs x run) : Fits (c.renameAll ms) rs x run := by
  cases run with
  | connecting => exact h
  | beginning => exact h
  | ended => exact h
  | threw e => exact h
  | committing =>
    have hmoves : x.moves = rs.filter c.due := congrArg Session.moves h
    have hdue' : rs.filter (c.renameAll ms).due = rs.filter c.due :=
      filter_due_commit ha hms hu hdue hS fun r hr hd =>
        hx r (by simp [hmoves, List.mem_filter, hr, hd])
    show x = ⟨rs.filter (c.renameAll ms).due, []⟩
    rw [hdue']
    exact h
  | rollingBack e =>
    refine ⟨h.1, fun m hm => ?_⟩
    obtain ⟨hmem, hd⟩ := h.2 m hm
    rw [Catalog.due_stays ha (hS m hmem) hms hu hdue fun _ => hx m hm]
    exact ⟨hmem, hd⟩
  | adopting r rest stage =>
    obtain ⟨done, hrs, hst⟩ := h
    have hsub : ∀ m ∈ done.filter c.due, m ∈ x.moves := by
      intro m hm
      rcases hst.moves with hmoves | ⟨hmoves, -⟩ <;> simp [hmoves, hm]
    have hdue' : done.filter (c.renameAll ms).due = done.filter c.due :=
      filter_due_commit ha hms hu hdue (fun m hm => hS m (by simp [hrs, hm])) fun m hm hd =>
        hx m (hsub m (List.mem_filter.mpr ⟨hm, hd⟩))
    refine ⟨done, hrs, ?_⟩
    rw [hdue']
    exact hst.commit ha hms hu hdue (hS r (by simp [hrs])) hx (hriv r)

end Commit

/-! ### One step -/

omit [Fintype ι] [DecidableEq ν] in
theorem Inv.put (h : Inv renames s) (hf : Fits s.server.committed (renames i) x run)
    (hx : ∀ m ∈ x.moves, m ∈ (s.server.sessions i).moves ∨
      ∀ j, j ≠ i → ∀ m' ∈ (s.server.sessions j).moves, m'.source ≠ m.source) :
    Inv renames (s.put i x run) where
  fits j := by
    simp only [State.put, Server.put, Function.update_apply]
    split_ifs with hj
    · rw [hj]
      exact hf
    · exact h.fits j
  exclusive := by
    have hone : ∀ j, j ≠ i → ∀ m ∈ x.moves, ∀ m' ∈ (s.server.sessions j).moves,
        m'.source ≠ m.source := by
      intro j hj m hm m' hm'
      rcases hx m hm with hold | hnew
      · exact h.exclusive j i hj m' hm' m hold
      · exact hnew j hj m' hm'
    intro j k hjk m hm m' hm'
    simp only [State.put, Server.put, Function.update_apply] at hm hm'
    split_ifs at hm hm' with hj hk hk
    · exact absurd (hj.trans hk.symm) hjk
    · exact (hone k hk m hm m' hm').symm
    · exact hone j hj m' hm' m hm
    · exact h.exclusive j k hjk m hm m' hm'

omit [Fintype ι] in
theorem Inv.commit (hc : Coherent renames) (h : Inv renames s) (hcom : s.runs i = .committing)
    (hriv : ∀ j r, Awaits s.server.committed r (s.runs j) →
      ∀ m ∈ (s.server.sessions i).moves, m.source = r.source → m.target = r.target)
    (hrun : Fits (s.server.view i) (renames i) .closed run) : Inv renames (s.commit i run) where
  fits j := by
    have hi := h.fits i
    rw [hcom] at hi
    have hmoves : (s.server.sessions i).moves = (renames i).filter s.server.committed.due :=
      congrArg Session.moves hi
    simp only [State.commit, Server.commit, Function.update_apply]
    split_ifs with hj
    · rw [hj]
      exact hrun
    · refine (h.fits j).commit hc.apart (fun m hm => ⟨i, (hi.moves hm).1⟩) ?_
        (fun m hm => (hi.moves hm).2) (fun r hr => ⟨j, hr⟩) (h.exclusive j i hj) (hriv j)
      rw [hmoves]
      exact (hc.once i).sublist List.filter_sublist
  exclusive := by
    intro j k hjk m hm m' hm'
    simp only [State.commit, Server.commit, Function.update_apply] at hm hm'
    split_ifs at hm hm' with hj hk hk
    · cases hm
    · cases hm
    · cases hm'
    · exact h.exclusive j k hjk m hm m' hm'

section Answer

variable (renames s i) in
/-- What an answered query leaves the run with fits the catalogue, and holds no table that another run holds. -/
def Answered (x' : Session ν) (run' : Run ν) : Prop :=
  Fits s.server.committed (renames i) x' run' ∧
    ∀ m ∈ x'.moves, m ∈ (s.server.sessions i).moves ∨
      ∀ j, j ≠ i → ∀ m' ∈ (s.server.sessions j).moves, m'.source ≠ m.source

variable {done rest : List (Rename ν)} {x' : Session ν} {run' : Run ν} {e : QueryError}

omit [DecidableEq ι] [Fintype ι] in
/-- A transaction that has made just the renames behind its run sees the current one's names as committed. -/
theorem view_at (hc : Coherent renames) (hrs : renames i = done ++ r :: rest)
    (hmoves : (s.server.sessions i).moves = done.filter s.server.committed.due) :
    s.server.view i r.source = s.server.committed r.source ∧
      s.server.view i r.target = s.server.committed r.target := by
  rw [Server.view, hmoves]
  exact view_current (hc.apart_of i) (hc.once i) hrs

omit [DecidableEq ν] in
/-- A rename that is not due is passed over. -/
theorem fits_skip (hrs : rs = done ++ r :: rest) (hd : c.due r = false) :
    Fits c rs ⟨done.filter c.due, []⟩ (next rest) := by
  have hfilter : (done ++ [r]).filter c.due = done.filter c.due := by simp [List.filter_append, hd]
  rw [← hfilter]
  exact fits_next _ (by simp [hrs])

theorem answer_sourceCheck (hc : Coherent renames) (hrs : renames i = done ++ r :: rest)
    (hx : s.server.sessions i = ⟨done.filter s.server.committed.due, []⟩)
    (ha : renameLegacyTableInTransaction s.server i r rest (s.server.sessions i) .sourceCheck = some (x', run')) :
    Answered renames s i x' run' := by
  cases ha
  refine ⟨⟨done, hrs, hx, ?_⟩, fun m hm => .inl hm⟩
  rw [tableExists, (view_at hc hrs (congrArg Session.moves hx)).1]
  split_ifs with hs
  · exact .inl hs
  · simpa using hs

theorem answer_destCheck (hc : Coherent renames) (hrs : renames i = done ++ r :: rest) {sourceExists : Bool}
    (hst : StageFits s.server.committed (s.server.sessions i) (done.filter s.server.committed.due) r
      (.destCheck sourceExists))
    (ha : renameLegacyTableInTransaction s.server i r rest (s.server.sessions i) (.destCheck sourceExists) =
      some (x', run')) : Answered renames s i x' run' := by
  obtain ⟨hx, hsrc⟩ := hst
  simp only [renameLegacyTableInTransaction, tableExists, (view_at hc hrs (congrArg Session.moves hx)).2] at ha
  split_ifs at ha with hskips <;> cases ha <;> refine ⟨?_, fun m hm => .inl hm⟩
  · rw [hx]
    refine fits_skip hrs ?_
    cases sourceExists with
    | false => simp [Catalog.due, show s.server.committed r.source = none from hsrc]
    | true =>
      have ht : (s.server.committed r.target).isSome := by simpa using hskips
      simp [Catalog.due, Option.isNone_eq_false_iff.mpr ht]
  · cases sourceExists with
    | false => simp at hskips
    | true =>
      have ht : s.server.committed r.target = none := by simpa using hskips
      exact ⟨done, hrs, hx, hsrc, fun _ => ht⟩

theorem answer_savepoint (hrs : renames i = done ++ r :: rest)
    (hst : StageFits s.server.committed (s.server.sessions i) (done.filter s.server.committed.due) r .savepoint)
    (ha : renameLegacyTableInTransaction s.server i r rest (s.server.sessions i) .savepoint = some (x', run')) :
    Answered renames s i x' run' := by
  obtain ⟨hx, hin, hfree⟩ := hst
  cases ha
  exact ⟨⟨done, hrs, by simp [hx, Session.savepoint], hin, hfree⟩, fun m hm => .inl hm⟩

theorem answer_alter (hc : Coherent renames) (hrs : renames i = done ++ r :: rest)
    (hst : StageFits s.server.committed (s.server.sessions i) (done.filter s.server.committed.due) r .alter)
    (ha : renameLegacyTableInTransaction s.server i r rest (s.server.sessions i) .alter = some (x', run')) :
    Answered renames s i x' run' := by
  obtain ⟨hx, hin, hfree⟩ := hst
  obtain ⟨hvs, hvt⟩ := view_at hc hrs (congrArg Session.moves hx)
  simp only [renameLegacyTableInTransaction] at ha
  cases hres : s.server.alter i r with
  | waits => simp [hres] at ha
  | renamed =>
    simp only [hres] at ha
    cases ha
    obtain ⟨hd, hfreeOf⟩ := Server.alter_eq_renamed hres
    rw [Catalog.due_congr hvs hvt] at hd
    refine ⟨⟨done, hrs, by simp [hx, Session.rename], hd⟩, fun m hm => ?_⟩
    rcases List.mem_append.mp hm with hm | hm
    · exact .inl hm
    · rw [List.mem_singleton.mp hm]
      exact .inr hfreeOf
  | noSuchTable =>
    simp only [hres] at ha
    cases ha
    have hgone : s.server.committed r.source = none := hvs ▸ Server.alter_eq_noSuchTable hres
    have htaken : (s.server.committed r.target).isSome := hin.resolve_left (by simp [hgone])
    exact ⟨⟨done, hrs, .inl hx, hgone, htaken⟩, fun m hm => .inl hm⟩
  | duplicateTable =>
    obtain ⟨hsome, htaken⟩ := Server.alter_eq_duplicateTable hres
    rw [hvs] at hsome
    rw [hvt, hfree hsome] at htaken
    cases htaken

theorem answer_releaseRenamed (hrs : renames i = done ++ r :: rest)
    (hst : StageFits s.server.committed (s.server.sessions i) (done.filter s.server.committed.due) r
      .releaseRenamed)
    (ha : renameLegacyTableInTransaction s.server i r rest (s.server.sessions i) .releaseRenamed =
      some (x', run')) : Answered renames s i x' run' := by
  obtain ⟨hx, hd⟩ := hst
  cases ha
  refine ⟨?_, fun m hm => .inl hm⟩
  have hfilter : (done ++ [r]).filter s.server.committed.due = done.filter s.server.committed.due ++ [r] := by
    simp [List.filter_append, hd]
  have hnext : Fits s.server.committed (renames i) ⟨(done ++ [r]).filter s.server.committed.due, []⟩ (next rest) :=
    fits_next _ (by simp [hrs])
  rw [hfilter] at hnext
  simpa [hx, Session.release] using hnext

theorem answer_rollbackTo (hrs : renames i = done ++ r :: rest)
    (hst : StageFits s.server.committed (s.server.sessions i) (done.filter s.server.committed.due) r
      (.rollbackTo e))
    (ha : renameLegacyTableInTransaction s.server i r rest (s.server.sessions i) (.rollbackTo e) =
      some (x', run')) : Answered renames s i x' run' := by
  obtain ⟨hx, hcause⟩ := hst
  cases ha
  have hback : (s.server.sessions i).rollbackTo =
      ⟨done.filter s.server.committed.due, [done.filter s.server.committed.due]⟩ := by
    rcases hx with hx | ⟨hx, -⟩ <;> simp [hx, Session.rollbackTo]
  refine ⟨⟨done, hrs, hback, hcause⟩, fun m hm => .inl ?_⟩
  rw [hback] at hm
  rcases hx with hx | ⟨hx, -⟩ <;> simp [hx, hm]

theorem answer_recheckSource (hc : Coherent renames) (h : Inv renames s) (hrs : renames i = done ++ r :: rest)
    (hst : StageFits s.server.committed (s.server.sessions i) (done.filter s.server.committed.due) r
      (.recheckSource e))
    (ha : renameLegacyTableInTransaction s.server i r rest (s.server.sessions i) (.recheckSource e) =
      some (x', run')) : Answered renames s i x' run' := by
  obtain ⟨hx, hcause⟩ := hst
  simp only [renameLegacyTableInTransaction, tableExists, (view_at hc hrs (congrArg Session.moves hx)).1] at ha
  split_ifs at ha with hs <;> cases ha <;> refine ⟨?_, fun m hm => .inl hm⟩
  · refine ⟨?_, fun m hm => (h.fits i).moves hm⟩
    cases e with
    | failed => rfl
    | noSuchTable => simp [hcause.1] at hs
    | duplicateTable => exact hcause.elim
  · exact ⟨done, hrs, hx, by simpa using hs, hcause⟩

theorem answer_recheckDest (hc : Coherent renames) (h : Inv renames s) (hrs : renames i = done ++ r :: rest)
    (hst : StageFits s.server.committed (s.server.sessions i) (done.filter s.server.committed.due) r
      (.recheckDest e))
    (ha : renameLegacyTableInTransaction s.server i r rest (s.server.sessions i) (.recheckDest e) =
      some (x', run')) : Answered renames s i x' run' := by
  obtain ⟨hx, hgone, hcause⟩ := hst
  simp only [renameLegacyTableInTransaction, tableExists, (view_at hc hrs (congrArg Session.moves hx)).2] at ha
  split_ifs at ha with ht <;> cases ha <;> refine ⟨?_, fun m hm => .inl hm⟩
  · exact ⟨done, hrs, hx, hgone⟩
  · refine ⟨?_, fun m hm => (h.fits i).moves hm⟩
    cases e with
    | failed => rfl
    | noSuchTable => exact absurd hcause.2 ht
    | duplicateTable => exact hcause.elim

theorem answer_releaseRecovered (hrs : renames i = done ++ r :: rest)
    (hst : StageFits s.server.committed (s.server.sessions i) (done.filter s.server.committed.due) r
      .releaseRecovered)
    (ha : renameLegacyTableInTransaction s.server i r rest (s.server.sessions i) .releaseRecovered =
      some (x', run')) : Answered renames s i x' run' := by
  obtain ⟨hx, hgone⟩ := hst
  cases ha
  refine ⟨?_, fun m hm => .inl hm⟩
  have hnext := fits_skip hrs (by simp [Catalog.due, hgone] : s.server.committed.due r = false)
  simpa [hx, Session.release] using hnext

/-- What an answered query of `renameLegacyTableInTransaction` leaves the run with. -/
theorem Inv.answer (hc : Coherent renames) (h : Inv renames s) {stage : Stage}
    (hrun : s.runs i = .adopting r rest stage)
    (ha : renameLegacyTableInTransaction s.server i r rest (s.server.sessions i) stage = some (x', run')) :
    Answered renames s i x' run' := by
  have hi := h.fits i
  rw [hrun] at hi
  obtain ⟨done, hrs, hst⟩ := hi
  cases stage with
  | sourceCheck => exact answer_sourceCheck hc hrs hst ha
  | destCheck sourceExists => exact answer_destCheck hc hrs hst ha
  | savepoint => exact answer_savepoint hrs hst ha
  | alter => exact answer_alter hc hrs hst ha
  | releaseRenamed => exact answer_releaseRenamed hrs hst ha
  | rollbackTo e => exact answer_rollbackTo hrs hst ha
  | recheckSource e => exact answer_recheckSource hc h hrs hst ha
  | recheckDest e => exact answer_recheckDest hc h hrs hst ha
  | releaseRecovered => exact answer_releaseRecovered hrs hst ha

end Answer

omit [DecidableEq ι] [Fintype ι] in
theorem Inv.awaited (hc : Coherent renames) (h : Inv renames s)
    (ha : Awaits s.server.committed r (s.runs j)) : r ∈ s.awaited j := by
  have hj := h.fits j
  cases hrun : s.runs j with
  | adopting r' rest stage =>
    rw [hrun] at ha hj
    obtain ⟨done, hrs, hst⟩ := hj
    cases stage with
    | destCheck sourceExists =>
      cases sourceExists with
      | false => exact ha.elim
      | true =>
        obtain ⟨rfl, ht⟩ := ha
        have hmoves : (s.server.sessions j).moves = done.filter s.server.committed.due :=
          congrArg Session.moves hst.1
        have hview : s.server.view j r'.target = none := by
          rw [Server.view, hmoves, (view_current (hc.apart_of j) (hc.once j) hrs).2, ht]
        simp [State.awaited, hrun, tableExists, hview]
    | savepoint =>
      have he : r' = r := ha
      simp [State.awaited, hrun, he]
    | alter =>
      have he : r' = r := ha
      simp [State.awaited, hrun, he]
    | _ => exact ha.elim
  | _ =>
    rw [hrun] at ha
    exact ha.elim

omit [Fintype ι] in
/-- A commit of a whole transaction. -/
theorem Inv.commit_of_unrivalled (hc : Coherent renames) (h : Inv renames s)
    (hcom : s.runs i = .committing)
    (hu : ∀ j, ∀ r ∈ s.awaited j, ∀ m ∈ (s.server.sessions i).moves,
      m.source = r.source → m.target = r.target)
    (hrun : Fits (s.server.view i) (renames i) .closed run) : Inv renames (s.commit i run) :=
  h.commit hc hcom (fun j r ha => hu j r (h.awaited hc ha)) hrun

theorem inv_step {a : Action ι} (hc : Coherent renames) (h : Inv renames s) (hu : Unrivalled s a)
    (hs : step renames s a = some s') : Inv renames s' := by
  have hsame : ∀ i run, Fits s.server.committed (renames i) (s.server.sessions i) run →
      Inv renames (s.put i (s.server.sessions i) run) := fun i run hf => h.put hf fun m hm => .inl hm
  have hclosed : ∀ i run, Fits s.server.committed (renames i) .closed run →
      Inv renames (s.put i .closed run) := fun i run hf => h.put hf fun m hm => by cases hm
  have hback : ∀ i e, s.runs i = .rollingBack e → Inv renames (s.put i .closed (.threw e)) := by
    intro i e hrun
    have hi := h.fits i
    rw [hrun] at hi
    exact hclosed i _ ⟨hi.1, rfl⟩
  cases transition_of_step hs with
  | @connects i hrun =>
    have hi := h.fits i
    rw [hrun] at hi
    exact hsame i _ hi
  | begins => exact hclosed _ _ (fits_next [] rfl)
  | answered hrun ha =>
    obtain ⟨hf, hx⟩ := h.answer hc hrun ha
    exact h.put hf hx
  | commits hrun => exact h.commit_of_unrivalled hc hrun (hu hrun) rfl
  | rolledBack hrun => exact hback _ _ hrun
  | @unconnected i hrun =>
    have hi := h.fits i
    rw [hrun] at hi
    exact hsame i _ ⟨rfl, hi⟩
  | @caught i r rest stage hrun hstage =>
    have hi := h.fits i
    rw [hrun] at hi
    obtain ⟨done, hrs, hst⟩ := hi
    rcases hstage with rfl | rfl
    · exact hsame i _ ⟨done, hrs, .inl hst.1, trivial⟩
    · exact hsame i _ ⟨done, hrs, .inr hst, trivial⟩
  | @uncaught i => exact hsame i _ ⟨rfl, fun m hm => (h.fits i).moves hm⟩
  | rollbackFailed hrun => exact hback _ _ hrun
  | commitLost hrun => exact h.commit_of_unrivalled hc hrun (hu hrun) ⟨rfl, fun m hm => by cases hm⟩

theorem inv_of_reachUnder (hc : Coherent renames)
    (h : ReachUnder (step renames) Unrivalled (start c) s) : Inv renames s :=
  h.invariant (inv_start c) fun _ _ _ hi hu hs => inv_step hc hi hu hs

/-! ### What a commit does -/

omit [DecidableEq ι] [Fintype ι] in
/-- A transaction at its `COMMIT` sees the committed catalogue with its renames adopted. -/
theorem Inv.view_committing (hc : Coherent renames) (h : Inv renames s) (hcom : s.runs i = .committing) :
    s.server.view i = s.server.committed.adopt (renames i) := by
  have hi := h.fits i
  rw [hcom] at hi
  have hmoves : (s.server.sessions i).moves = (renames i).filter s.server.committed.due :=
    congrArg Session.moves hi
  rw [Server.view, hmoves, Catalog.adopt_eq (hc.apart_of i) (hc.once i)]

/-- Nothing but a `COMMIT` changes the committed catalogue. -/
theorem step_committed {a : Action ι} (hs : step renames s a = some s') :
    s'.server.committed = s.server.committed ∨
      s.runs a.run = .committing ∧ (s'.runs a.run = .ended ∨ a = .commitLost a.run) ∧
        s'.server.committed = s.server.view a.run := by
  cases transition_of_step hs with
  | commits hrun => exact .inr ⟨hrun, .inl (Function.update_self ..), rfl⟩
  | commitLost hrun => exact .inr ⟨hrun, .inr rfl, rfl⟩
  | _ => exact .inl rfl

/-! ### Failures of the run's own -/

/-- The error a run is dealing with. -/
def Run.error : Run ν → Option QueryError
  | .adopting _ _ (.rollbackTo e) | .adopting _ _ (.recheckSource e) | .adopting _ _ (.recheckDest e)
  | .rollingBack e | .threw e => some e
  | _ => none

/-- A run that is about to throw, or has thrown. -/
def Run.failing : Run ν → Bool
  | .rollingBack _ | .threw _ => true
  | _ => false

omit [DecidableEq ν] in
theorem error_next (rest : List (Rename ν)) : (next rest).error = none := by
  cases rest <;> rfl

theorem error_answer {rest : List (Rename ν)} {stage : Stage} {out : Session ν × Run ν}
    (ha : renameLegacyTableInTransaction s.server i r rest x stage = some out)
    (h : (Run.adopting r rest stage).error ≠ some .failed) : out.2.error ≠ some .failed := by
  have hnext := error_next rest
  cases stage <;> simp only [renameLegacyTableInTransaction] at ha <;> (try split at ha) <;>
    cases ha <;> first | exact h | (intro he; cases he) | (intro he; rw [hnext] at he; cases he)

/-- Only a query of its own that fails for a reason of its own gives a run that error. -/
theorem error_step {a : Action ι} (hs : step renames s a = some s') (hf : a ≠ .fails i)
    (hl : a ≠ .commitLost i) (h : (s.runs i).error ≠ some .failed) : (s'.runs i).error ≠ some .failed := by
  have hothers : ∀ j run, j ≠ i → Function.update s.runs j run i = s.runs i :=
    fun j run hj => Function.update_of_ne hj.symm ..
  have hput : ∀ j x run, (j = i → run.error ≠ some .failed) →
      ((s.put j x run).runs i).error ≠ some .failed := by
    intro j x run hrun
    by_cases hj : j = i
    · simpa [State.put, hj] using hrun hj
    · simpa [State.put, hothers j run hj] using h
  cases transition_of_step hs with
  | connects => exact hput _ _ _ fun _ he => by cases he
  | begins => exact hput _ _ _ fun _ he => by rw [error_next] at he; cases he
  | @answered j r rest stage x run hrun ha =>
    refine hput j _ _ fun hj => error_answer ha ?_
    rw [← hrun, hj]
    exact h
  | @commits j =>
    by_cases hj : j = i
    · simp [State.commit, hj, Run.error]
    · simpa [State.commit, hothers j _ hj] using h
  | @rolledBack j e hrun =>
    refine hput j _ _ fun hj => ?_
    rw [hj] at hrun
    rw [hrun] at h
    exact h
  | @unconnected j | @caught j | @uncaught j | @rollbackFailed j =>
    exact hput j _ _ fun hj => absurd (congrArg Action.fails hj) hf
  | @commitLost j =>
    have hj : j ≠ i := fun hj => hl (by rw [hj])
    simpa [State.commit, hothers j _ hj] using h

/-- A run whose own queries fail only as the catalogue makes them fail does not throw. -/
theorem not_failing (hc : Coherent renames) (h : ReachUnder (step renames)
    (fun s a => Unrivalled s a ∧ a ≠ .fails i ∧ a ≠ .commitLost i) (start c) s) :
    (s.runs i).failing = false := by
  have herror : (s.runs i).error ≠ some .failed := h.invariant (P := fun s => (s.runs i).error ≠ some .failed)
    (fun he => by cases he) fun _ _ _ he hok hs => error_step hs hok.2.1 hok.2.2 he
  have hfits := (inv_of_reachUnder hc (h.mono fun _ _ hok => hok.1)).fits i
  cases hrun : s.runs i with
  | rollingBack e =>
    rw [hrun] at herror hfits
    exact absurd (congrArg some hfits.1) herror
  | threw e =>
    rw [hrun] at herror hfits
    exact absurd (congrArg some hfits.1) herror
  | _ => rfl

end Invariant

end FinP2PAdapter.Migration
