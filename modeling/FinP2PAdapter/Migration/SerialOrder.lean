import FinP2PAdapter.Migration.Interleavings

/-! The serial orders of the adoption runs, in which only one run is under way at a time. A run
alone on the server makes the renames that are due and commits. An interleaving in which no run
takes a legacy table away from one that is about to rename it ends like the serial order of its
commits: each run takes its turn when it commits, or when it throws. -/

namespace FinP2PAdapter.Migration

open Renames Machine

section Serial

variable {ι ν τ : Type*} [DecidableEq ι] [Fintype ι] [DecidableEq ν]

/-- Not started, or over. -/
def Run.idle : Run ν → Bool
  | .connecting | .ended | .threw _ => true
  | _ => false

/-- Every other run is over or has not started. -/
def OneAtATime (s : State ι ν τ) (a : Action ι) : Prop := ∀ j, j ≠ a.run → (s.runs j).idle = true

/-- The answered queries of one run, while every other run is over or has not started. -/
def Turn (i : ι) (s : State ι ν τ) (a : Action ι) : Prop := OneAtATime s a ∧ a = .query i

variable {renames : ι → List (Rename ν)} {c : Catalog ν τ} {x x' : Session ν} {run run' : Run ν}
  {r : Rename ν} {s s' t : State ι ν τ} {i j : ι}

omit [Fintype ι] [DecidableEq ν] in
@[simp] theorem put_put : (s.put i x run).put i x' run' = s.put i x' run' := by
  simp [State.put, Server.put, Function.update_idem]

omit [Fintype ι] [DecidableEq ν] in
theorem put_self : s.put i (s.server.sessions i) (s.runs i) = s := by
  simp [State.put, Server.put]

/-- A run alone on the server: every other one is idle and holds nothing. -/
structure Alone (t : State ι ν τ) (i : ι) : Prop where
  idle : ∀ j, j ≠ i → (t.runs j).idle = true
  moves : ∀ j, j ≠ i → (t.server.sessions j).moves = []

omit [Fintype ι] [DecidableEq ν] in
theorem Alone.oneAtATime (h : Alone t i) {a : Action ι} (ha : a.run = i) :
    OneAtATime (t.put i x run) a := by
  intro j hj
  rw [ha] at hj
  have hrun : (t.put i x run).runs j = t.runs j := Function.update_of_ne hj ..
  rw [hrun]
  exact h.idle j hj

/-- One answered query of a lone run. -/
theorem Alone.query (h : Alone t i) {stage : Stage} (rest : List (Rename ν)) (x x' : Session ν)
    (run' : Run ν)
    (ha : renameLegacyTableInTransaction (t.server.put i x) i r rest x stage = some (x', run')) :
    ReachUnder (step renames) (Turn i) (t.put i x (.adopting r rest stage)) (t.put i x' run') := by
  refine .single (a := .query i) ⟨h.oneAtATime rfl, rfl⟩ ?_
  have hx : (t.server.put i x).sessions i = x := Function.update_self ..
  have hrun : (t.put i x (.adopting r rest stage)).runs i = .adopting r rest stage :=
    Function.update_self ..
  have hserver : (t.put i x (.adopting r rest stage)).server = t.server.put i x := rfl
  simp only [step, adoptLegacyMigrationTables, hrun]
  rw [hserver, hx, ha, Option.map_some, put_put]

/-- A lone run settles one rename: it skips it, or makes it when it is due. -/
theorem Alone.rename (hc : Coherent renames) (h : Alone t i) {done rest : List (Rename ν)}
    (hrs : renames i = done ++ r :: rest) :
    ReachUnder (step renames) (Turn i)
      (t.put i ⟨done.filter t.server.committed.due, []⟩ (.adopting r rest .sourceCheck))
      (t.put i ⟨(done ++ [r]).filter t.server.committed.due, []⟩ (next rest)) := by
  have hview : ∀ sp, (t.server.put i ⟨done.filter t.server.committed.due, sp⟩).view i r.source =
        t.server.committed r.source ∧
      (t.server.put i ⟨done.filter t.server.committed.due, sp⟩).view i r.target =
        t.server.committed r.target := by
    intro sp
    simp only [Server.view, Server.put, Function.update_self]
    exact view_current (hc.apart_of i) (hc.once i) hrs
  refine (h.query rest ⟨done.filter t.server.committed.due, []⟩ ⟨done.filter t.server.committed.due, []⟩
    (.adopting r rest (.destCheck (t.server.committed r.source).isSome)) ?_).trans ?_
  · simp [renameLegacyTableInTransaction, tableExists, (hview []).1]
  by_cases hd : t.server.committed.due r = true
  · obtain ⟨hs, ht⟩ := Catalog.due_eq_true.mp hd
    have hfilter : (done ++ [r]).filter t.server.committed.due =
        done.filter t.server.committed.due ++ [r] := by simp [List.filter_append, hd]
    rw [hfilter]
    refine (h.query rest _ ⟨done.filter t.server.committed.due, []⟩ (.adopting r rest .savepoint)
      ?_).trans ?_
    · simp [renameLegacyTableInTransaction, tableExists, (hview []).2, hs, ht]
    refine (h.query rest _ _ (.adopting r rest .alter) rfl).trans ?_
    refine (h.query rest _ ⟨done.filter t.server.committed.due ++ [r],
      [done.filter t.server.committed.due]⟩ (.adopting r rest .releaseRenamed) ?_).trans ?_
    · have hrenamed : (t.server.put i ⟨done.filter t.server.committed.due,
          [done.filter t.server.committed.due]⟩).alter i r = .renamed := by
        refine Server.alter_of_alone (fun j hj => ?_) ?_
        · simpa [Server.put, Function.update_of_ne hj] using h.moves j hj
        · rw [Catalog.due_congr (hview _).1 (hview _).2, hd]
      simp [renameLegacyTableInTransaction, Session.savepoint, Session.rename, hrenamed]
    · exact h.query rest _ _ _ rfl
  · have hfilter : (done ++ [r]).filter t.server.committed.due = done.filter t.server.committed.due := by
      simp [List.filter_append, hd]
    rw [hfilter]
    refine h.query rest _ _ _ ?_
    have hskip : (!(t.server.committed r.source).isSome || (t.server.committed r.target).isSome) = true := by
      cases hs : t.server.committed r.source with
      | none => rfl
      | some table => simpa [Catalog.due, hs, Option.isSome_iff_ne_none] using hd
    simp only [renameLegacyTableInTransaction, tableExists, (hview []).2, hskip, if_true]

/-- A lone run comes to its `COMMIT` with every due rename made. -/
theorem Alone.adopt (hc : Coherent renames) (h : Alone t i) (done : List (Rename ν))
    {rest : List (Rename ν)} (hrs : renames i = done ++ rest) :
    ReachUnder (step renames) (Turn i) (t.put i ⟨done.filter t.server.committed.due, []⟩ (next rest))
      (t.put i ⟨(renames i).filter t.server.committed.due, []⟩ .committing) := by
  induction rest generalizing done with
  | nil =>
    rw [hrs, List.append_nil]
    exact .start
  | cons r rest ih => exact (h.rename hc hrs).trans (ih (done ++ [r]) (by simp [hrs]))

theorem Alone.toCommit (hc : Coherent renames) (h : Alone t i) (hrun : t.runs i = .connecting) :
    ReachUnder (step renames) (Turn i) t
      (t.put i ⟨(renames i).filter t.server.committed.due, []⟩ .committing) := by
  have hself : t = t.put i (t.server.sessions i) .connecting := by rw [← hrun, put_self]
  have hconnect : ReachUnder (step renames) (Turn i) t
      (t.put i (t.server.sessions i) .beginning) := by
    refine .single (a := .query i) ⟨?_, rfl⟩ (by simp [step, adoptLegacyMigrationTables, hrun])
    rw [hself]
    exact h.oneAtATime rfl
  have hbegin : ReachUnder (step renames) (Turn i) (t.put i (t.server.sessions i) .beginning)
      (t.put i .closed (next (renames i))) := by
    refine .single (a := .query i) ⟨h.oneAtATime rfl, rfl⟩ ?_
    have hb : (t.put i (t.server.sessions i) .beginning).runs i = .beginning := Function.update_self ..
    simp only [step, adoptLegacyMigrationTables, hb, put_put]
  exact (hconnect.trans hbegin).trans (h.adopt hc [] rfl)

/-- A lone run ends. -/
theorem Alone.toEnd (hc : Coherent renames) (h : Alone t i) (hrun : t.runs i = .connecting) :
    ReachUnder (step renames) (Turn i) t
      ((t.put i ⟨(renames i).filter t.server.committed.due, []⟩ .committing).commit i .ended) := by
  refine (h.toCommit hc hrun).trans (.single (a := .query i) ⟨h.oneAtATime rfl, rfl⟩ ?_)
  simp [step, adoptLegacyMigrationTables, State.put]

omit [Fintype ι] in
/-- A lone run's transaction, committed. -/
theorem Alone.commit (hc : Coherent renames) :
    (t.put i ⟨(renames i).filter t.server.committed.due, []⟩ .committing).commit i run =
      { server := { committed := t.server.committed.adopt (renames i),
                    sessions := Function.update t.server.sessions i .closed },
        runs := Function.update t.runs i run } := by
  simp [State.commit, State.put, Server.commit, Server.put, Server.view, Function.update_idem,
    Catalog.adopt_eq (hc.apart_of i) (hc.once i)]

/-! ### The serial order -/

/-- A run of an interleaving and the same run in the serial order: it has its whole turn when its
transaction is committed or, if it fails, when it throws. -/
def Counterpart : Run ν → Run ν → Prop
  | .ended, q => q = .ended
  | .threw e, q => q = .threw e
  | .rollingBack e, q => q = .connecting ∨ q = .threw e
  | _, q => q = .connecting

structure Serialized (s t : State ι ν τ) : Prop where
  committed : t.server.committed = s.server.committed
  sessions : ∀ i, t.server.sessions i = .closed
  runs : ∀ i, Counterpart (s.runs i) (t.runs i)

omit [DecidableEq ν] in
theorem Counterpart.idle {q : Run ν} (h : Counterpart run q) : q.idle = true := by
  cases run with
  | rollingBack e => rcases h with rfl | rfl <;> rfl
  | _ => exact (show q = _ from h) ▸ rfl

omit [DecidableEq ν] in
theorem counterpart_next (rest : List (Rename ν)) : Counterpart (next rest) .connecting := by
  cases rest <;> rfl

theorem counterpart_answer {rest : List (Rename ν)} {stage : Stage} {out : Session ν × Run ν}
    (ha : renameLegacyTableInTransaction s.server i r rest x stage = some out) :
    Counterpart out.2 .connecting := by
  have hnext := counterpart_next rest
  cases stage <;> simp only [renameLegacyTableInTransaction] at ha <;> (try split at ha) <;>
    cases ha <;> first | exact hnext | rfl | exact .inl rfl

omit [DecidableEq ι] [Fintype ι] [DecidableEq ν] in
theorem Serialized.alone (h : Serialized s t) (i : ι) : Alone t i where
  idle j _ := (h.runs j).idle
  moves j _ := by rw [h.sessions j]; rfl

omit [Fintype ι] [DecidableEq ν] in
theorem Serialized.put (h : Serialized s t) (hr : Counterpart run (t.runs i)) :
    Serialized (s.put i x run) t where
  committed := h.committed
  sessions := h.sessions
  runs j := by
    simp only [State.put, Function.update_apply]
    split_ifs with hj
    · rw [hj]
      exact hr
    · exact h.runs j

/-- A run that throws without having committed takes its turn by failing to connect. -/
theorem Serialized.fail (h : Serialized s t) (hi : t.runs i = .connecting) :
    ∃ t', ReachUnder (step renames) OneAtATime t t' ∧ Serialized (s.put i x (.threw .failed)) t' := by
  refine ⟨t.put i (t.server.sessions i) (.threw .failed), .single (a := .fails i) ?_ ?_, h.committed, ?_, ?_⟩
  · exact fun j _ => (h.runs j).idle
  · simp [step, queryFails, hi]
  · intro j
    simp only [State.put, Server.put, Function.update_eq_self]
    exact h.sessions j
  · intro j
    simp only [State.put, Function.update_apply]
    split_ifs with hj
    · rfl
    · exact h.runs j

omit [Fintype ι] in
theorem Serialized.committed_turn (hc : Coherent renames) (hinv : Inv renames s) (h : Serialized s t)
    (hcom : s.runs i = .committing) (hq : Counterpart run run') :
    Serialized (s.commit i run)
      ((t.put i ⟨(renames i).filter t.server.committed.due, []⟩ .committing).commit i run') := by
  rw [Alone.commit hc]
  refine ⟨?_, fun j => ?_, fun j => ?_⟩
  · rw [h.committed]
    exact (hinv.view_committing hc hcom).symm
  · simp only [Function.update_apply]
    split_ifs
    · rfl
    · exact h.sessions j
  · simp only [State.commit, Function.update_apply]
    split_ifs with hj
    · exact hq
    · exact h.runs j

/-- A run that commits takes its turn as a whole. -/
theorem Serialized.commit (hc : Coherent renames) (hinv : Inv renames s) (h : Serialized s t)
    (hcom : s.runs i = .committing) : ∃ t', ReachUnder (step renames) OneAtATime t t' ∧
      Serialized (s.commit i .ended) t' := by
  have hi : t.runs i = .connecting := by
    have hr := h.runs i
    rw [hcom] at hr
    exact hr
  exact ⟨_, ((h.alone i).toEnd hc hi).mono fun _ _ hok => hok.1, h.committed_turn hc hinv hcom rfl⟩

/-- So does a run whose `COMMIT` is lost, and then it throws. -/
theorem Serialized.commitLost (hc : Coherent renames) (hinv : Inv renames s) (h : Serialized s t)
    (hcom : s.runs i = .committing) : ∃ t', ReachUnder (step renames) OneAtATime t t' ∧
      Serialized (s.commit i (.rollingBack .failed)) t' := by
  have hi : t.runs i = .connecting := by
    have hr := h.runs i
    rw [hcom] at hr
    exact hr
  have halone := h.alone i
  set u := t.put i ⟨(renames i).filter t.server.committed.due, []⟩ .committing with hu
  have hcommit : ReachUnder (step renames) OneAtATime u (u.commit i (.rollingBack .failed)) :=
    .single (a := .commitLost i) (halone.oneAtATime rfl) (by simp [step, hu, State.put])
  have hback : ReachUnder (step renames) OneAtATime (u.commit i (.rollingBack .failed))
      (u.commit i (.threw .failed)) := by
    refine .single (a := .query i) (fun j hj => ?_) ?_
    · have hrun : (u.commit i (.rollingBack .failed)).runs j = t.runs j := by
        simp [hu, State.commit, State.put, Function.update_of_ne (show j ≠ i from hj)]
      rw [hrun]
      exact halone.idle j hj
    · simp [step, adoptLegacyMigrationTables, State.commit, State.put, Server.put, Server.commit]
  exact ⟨_, ((halone.toCommit hc hi).mono fun _ _ hok => hok.1).trans (hcommit.trans hback),
    h.committed_turn hc hinv hcom (.inr rfl)⟩

/-- Each step of an interleaving is some run's turn in the serial order, or no turn. -/
theorem serialized_step {a : Action ι} (hc : Coherent renames) (hinv : Inv renames s)
    (h : Serialized s t) (hs : step renames s a = some s') :
    ∃ t', ReachUnder (step renames) OneAtATime t t' ∧ Serialized s' t' := by
  have hsame : ∀ i x run, Counterpart run (t.runs i) → ∃ t',
      ReachUnder (step renames) OneAtATime t t' ∧ Serialized (s.put i x run) t' :=
    fun i x run hr => ⟨t, .start, h.put hr⟩
  have hback : ∀ i e, s.runs i = .rollingBack e → ∃ t',
      ReachUnder (step renames) OneAtATime t t' ∧ Serialized (s.put i .closed (.threw e)) t' := by
    intro i e hrun
    have hr := h.runs i
    have hi := hinv.fits i
    rw [hrun] at hr hi
    rcases hr with hr | hr
    · rw [hi.1]
      exact h.fail hr
    · exact hsame i _ _ hr
  have hcounterpart : ∀ i run, s.runs i = run → Counterpart run (t.runs i) := by
    rintro i _ rfl
    exact h.runs i
  cases transition_of_step hs with
  | @connects i hrun =>
    have hr := hcounterpart i _ hrun
    exact hsame i _ _ hr
  | @begins i hrun =>
    have hq := counterpart_next (renames i)
    rw [← show t.runs i = .connecting from hcounterpart i _ hrun] at hq
    exact hsame i _ _ hq
  | @answered i r rest stage x run hrun ha =>
    have hq := counterpart_answer ha
    rw [← show t.runs i = .connecting from hcounterpart i _ hrun] at hq
    exact hsame i _ _ hq
  | commits hrun => exact h.commit hc hinv hrun
  | rolledBack hrun | rollbackFailed hrun => exact hback _ _ hrun
  | unconnected hrun => exact h.fail (hcounterpart _ _ hrun)
  | @caught i r rest stage hrun =>
    have hr := hcounterpart i _ hrun
    exact hsame i _ _ hr
  | @uncaught i hrun =>
    refine hsame i _ _ (.inl ?_)
    rcases hrun with hrun | hrun | ⟨r, rest, stage, hrun⟩ <;> exact hcounterpart i _ hrun
  | commitLost hrun => exact h.commitLost hc hinv hrun

theorem serialized_of_reachUnder (hc : Coherent renames)
    (h : ReachUnder (step renames) Unrivalled (start c) s) :
    ∃ t, ReachUnder (step renames) OneAtATime (start c) t ∧ Serialized s t := by
  refine h.invariant_from (Q := Inv renames)
    (P := fun s => ∃ t, ReachUnder (step renames) OneAtATime (start c) t ∧ Serialized s t)
    (fun _ hr => inv_of_reachUnder hc hr) ?_ ?_
  · exact ⟨start c, .start, rfl, fun _ => rfl, fun _ => rfl⟩
  rintro u a u' hinv ⟨t, ht, hser⟩ - hs
  obtain ⟨t', ht', hser'⟩ := serialized_step hc hinv hser hs
  exact ⟨t', ht.trans ht', hser'⟩

end Serial

end FinP2PAdapter.Migration
