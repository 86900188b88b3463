import FinP2PAdapter.Library.CaseFold
import FinP2PAdapter.Library.Machine
import FinP2PAdapter.Library.Renames

/-! `adoptLegacyMigrationTables`: the adapters that boot on one database each rename the two
legacy migration tables to the names derived from their ledger schema, in one transaction with a
savepoint around each rename. A run is a program counter that moves with each of its queries;
the queries of any number of runs interleave, and each may also fail for a reason of its own. -/

namespace FinP2PAdapter.Migration

open Renames Machine

/-- Why a query failed: the table or the name was not as `ALTER TABLE` needs it, or another
reason, such as a lost connection or a lock timeout. -/
inductive QueryError where
  | noSuchTable | duplicateTable | failed
  deriving DecidableEq

/-- The query `renameLegacyTableInTransaction` is at. -/
inductive Stage where
  | sourceCheck
  | destCheck (sourceExists : Bool)
  | savepoint
  | alter
  | releaseRenamed
  | rollbackTo (e : QueryError)
  | recheckSource (e : QueryError)
  | recheckDest (e : QueryError)
  | releaseRecovered
  deriving DecidableEq

inductive Run (ν : Type*) where
  | connecting
  | beginning
  | adopting (r : Rename ν) (rest : List (Rename ν)) (stage : Stage)
  | committing
  | rollingBack (e : QueryError)
  | ended
  | threw (e : QueryError)
  deriving DecidableEq

/-- A run that has returned or thrown. -/
def Run.finished {ν : Type*} : Run ν → Bool
  | .ended | .threw _ => true
  | _ => false

/-- The renames of a run, under the names the database reads its identifiers as. -/
def renamesOf {ν : Type*} (identifier : String → ν) (vanillaMigrationsTable ledgerSchema : String) :
    List (Rename ν) :=
  [⟨identifier "finp2p_ethereum_adapater_migrations", identifier (ledgerSchema ++ "_migrations")⟩,
    ⟨identifier vanillaMigrationsTable, identifier (ledgerSchema ++ "_" ++ vanillaMigrationsTable)⟩]

structure State (ι ν τ : Type*) where
  server : Server ι ν τ
  runs : ι → Run ν

inductive Action (ι : Type*) where
  /-- The server carries out the query a run is at, and the run receives the answer. -/
  | query (i : ι)
  /-- The query a run is at fails for a reason of its own, without an effect. -/
  | fails (i : ι)
  /-- A run's `COMMIT` takes effect, but the run does not learn of it. -/
  | commitLost (i : ι)
  deriving DecidableEq

def Action.run {ι : Type*} : Action ι → ι
  | .query i | .fails i | .commitLost i => i

section Program

variable {ι ν τ : Type*} [DecidableEq ι] [Fintype ι] [DecidableEq ν]

def tableExists (server : Server ι ν τ) (i : ι) (name : ν) : Bool := (server.view i name).isSome

/-- The loop over the renames: the next one, or `COMMIT` after the last. -/
def next : List (Rename ν) → Run ν
  | [] => .committing
  | r :: rest => .adopting r rest .sourceCheck

/-- One query of `renameLegacyTableInTransaction`; there is no answer while `ALTER TABLE` waits. -/
def renameLegacyTableInTransaction (server : Server ι ν τ) (i : ι) (r : Rename ν) (rest : List (Rename ν))
    (x : Session ν) : Stage → Option (Session ν × Run ν)
  | .sourceCheck => some (x, .adopting r rest (.destCheck (tableExists server i r.source)))
  | .destCheck sourceExists =>
    if !sourceExists || tableExists server i r.target then some (x, next rest)
    else some (x, .adopting r rest .savepoint)
  | .savepoint => some (x.savepoint, .adopting r rest .alter)
  | .alter =>
    match server.alter i r with
    | .waits => none
    | .renamed => some (x.rename r, .adopting r rest .releaseRenamed)
    | .noSuchTable => some (x, .adopting r rest (.rollbackTo .noSuchTable))
    | .duplicateTable => some (x, .adopting r rest (.rollbackTo .duplicateTable))
  | .releaseRenamed => some (x.release, next rest)
  -- the catch block: undo this rename, and look whether another actor completed it
  | .rollbackTo e => some (x.rollbackTo, .adopting r rest (.recheckSource e))
  | .recheckSource e =>
    if tableExists server i r.source then some (x, .rollingBack e)
    else some (x, .adopting r rest (.recheckDest e))
  | .recheckDest e =>
    if tableExists server i r.target then some (x, .adopting r rest .releaseRecovered)
    else some (x, .rollingBack e)
  | .releaseRecovered => some (x.release, next rest)

def State.put (s : State ι ν τ) (i : ι) (x : Session ν) (run : Run ν) : State ι ν τ :=
  { server := s.server.put i x, runs := Function.update s.runs i run }

def State.commit (s : State ι ν τ) (i : ι) (run : Run ν) : State ι ν τ :=
  { server := s.server.commit i, runs := Function.update s.runs i run }

/-- One query of a run of `adoptLegacyMigrationTables` that the server answers. -/
def adoptLegacyMigrationTables (renames : ι → List (Rename ν)) (s : State ι ν τ) (i : ι) :
    Option (State ι ν τ) :=
  match s.runs i with
  | .connecting => some (s.put i (s.server.sessions i) .beginning)
  | .beginning => some (s.put i .closed (next (renames i)))
  | .adopting r rest stage =>
    (renameLegacyTableInTransaction s.server i r rest (s.server.sessions i) stage).map fun out =>
      s.put i out.1 out.2
  | .committing => some (s.commit i .ended)
  | .rollingBack e => some (s.put i .closed (.threw e))
  | .ended | .threw _ => none

/-- A query that fails for a reason of its own. Only the rename itself and the release of its
savepoint are inside the inner `try`; a `ROLLBACK` that fails is ignored, and the connection is
closed after it. -/
def queryFails (s : State ι ν τ) (i : ι) : Option (State ι ν τ) :=
  match s.runs i with
  | .connecting => some (s.put i (s.server.sessions i) (.threw .failed))
  | .adopting r rest .alter | .adopting r rest .releaseRenamed =>
    some (s.put i (s.server.sessions i) (.adopting r rest (.rollbackTo .failed)))
  | .beginning | .adopting _ _ _ | .committing =>
    some (s.put i (s.server.sessions i) (.rollingBack .failed))
  | .rollingBack e => some (s.put i .closed (.threw e))
  | .ended | .threw _ => none

def step (renames : ι → List (Rename ν)) (s : State ι ν τ) : Action ι → Option (State ι ν τ)
  | .query i => adoptLegacyMigrationTables renames s i
  | .fails i => queryFails s i
  | .commitLost i => if s.runs i = .committing then some (s.commit i (.rollingBack .failed)) else none

/-- What a step does. A query is answered, or it fails, or a `COMMIT` takes effect that the run does not learn
of. -/
inductive Transition (renames : ι → List (Rename ν)) (s : State ι ν τ) : Action ι → State ι ν τ → Prop
  | connects {i : ι} (hrun : s.runs i = .connecting) :
      Transition renames s (.query i) (s.put i (s.server.sessions i) .beginning)
  | begins {i : ι} (hrun : s.runs i = .beginning) :
      Transition renames s (.query i) (s.put i .closed (next (renames i)))
  | answered {i : ι} {r : Rename ν} {rest : List (Rename ν)} {stage : Stage} {x : Session ν} {run : Run ν}
      (hrun : s.runs i = .adopting r rest stage)
      (ha : renameLegacyTableInTransaction s.server i r rest (s.server.sessions i) stage = some (x, run)) :
      Transition renames s (.query i) (s.put i x run)
  | commits {i : ι} (hrun : s.runs i = .committing) : Transition renames s (.query i) (s.commit i .ended)
  | rolledBack {i : ι} {e : QueryError} (hrun : s.runs i = .rollingBack e) :
      Transition renames s (.query i) (s.put i .closed (.threw e))
  | unconnected {i : ι} (hrun : s.runs i = .connecting) :
      Transition renames s (.fails i) (s.put i (s.server.sessions i) (.threw .failed))
  | caught {i : ι} {r : Rename ν} {rest : List (Rename ν)} {stage : Stage}
      (hrun : s.runs i = .adopting r rest stage) (hstage : stage = .alter ∨ stage = .releaseRenamed) :
      Transition renames s (.fails i) (s.put i (s.server.sessions i) (.adopting r rest (.rollbackTo .failed)))
  | uncaught {i : ι} (hrun : s.runs i = .beginning ∨ s.runs i = .committing ∨
      ∃ r rest stage, s.runs i = .adopting r rest stage) :
      Transition renames s (.fails i) (s.put i (s.server.sessions i) (.rollingBack .failed))
  | rollbackFailed {i : ι} {e : QueryError} (hrun : s.runs i = .rollingBack e) :
      Transition renames s (.fails i) (s.put i .closed (.threw e))
  | commitLost {i : ι} (hrun : s.runs i = .committing) :
      Transition renames s (.commitLost i) (s.commit i (.rollingBack .failed))

theorem transition_of_step {renames : ι → List (Rename ν)} {s s' : State ι ν τ} {a : Action ι}
    (hs : step renames s a = some s') : Transition renames s a s' := by
  cases a with
  | query i =>
    simp only [step, adoptLegacyMigrationTables] at hs
    cases hrun : s.runs i with
    | connecting =>
      simp only [hrun, Option.some.injEq] at hs
      exact hs ▸ .connects hrun
    | beginning =>
      simp only [hrun, Option.some.injEq] at hs
      exact hs ▸ .begins hrun
    | adopting r rest stage =>
      simp only [hrun, Option.map_eq_some_iff] at hs
      obtain ⟨⟨x, run⟩, ha, rfl⟩ := hs
      exact .answered hrun ha
    | committing =>
      simp only [hrun, Option.some.injEq] at hs
      exact hs ▸ .commits hrun
    | rollingBack e =>
      simp only [hrun, Option.some.injEq] at hs
      exact hs ▸ .rolledBack hrun
    | ended => simp [hrun] at hs
    | threw e => simp [hrun] at hs
  | fails i =>
    simp only [step, queryFails] at hs
    split at hs <;> simp only [Option.some.injEq, reduceCtorEq] at hs <;> rename_i hrun <;> subst hs
    · exact .unconnected hrun
    · exact .caught hrun (.inl rfl)
    · exact .caught hrun (.inr rfl)
    · exact .uncaught (.inl hrun)
    · exact .uncaught (.inr (.inr ⟨_, _, _, hrun⟩))
    · exact .uncaught (.inr (.inl hrun))
    · exact .rollbackFailed hrun
  | commitLost i =>
    simp only [step, Option.ite_none_right_eq_some, Option.some.injEq] at hs
    obtain ⟨hrun, rfl⟩ := hs
    exact .commitLost hrun

/-- Every run is yet to start. -/
def start (c : Catalog ν τ) : State ι ν τ :=
  { server := { committed := c, sessions := fun _ => .closed }, runs := fun _ => .connecting }

end Program

/-- A database that only has the adapter's own legacy table. -/
def oneLegacyTable : Catalog String ℕ := fun name =>
  if name = "finp2p_ethereum_adapater_migrations" then some 1 else none

end FinP2PAdapter.Migration
