import Mathlib.Logic.Function.Basic
import Mathlib.Data.Fintype.Basic
import Mathlib.Tactic.Common

/-! Renames of tables by concurrent transactions of a database. A catalogue maps names to
tables; a rename is due when its source is there and its target is not, and a list of renames
is adopted by carrying out those that are due, in order. When no target is a source and no two
sources share a target, what is due does not depend on the order, which is what lets a
transaction decide on it one rename at a time while others commit. A server shows each
transaction the committed catalogue with its own renames, and holds a rename that another open
transaction has a claim on until that transaction ends. -/

namespace FinP2PAdapter.Renames

structure Rename (ν : Type*) where
  source : ν
  target : ν
  deriving DecidableEq

/-- The tables by name. -/
abbrev Catalog (ν τ : Type*) := ν → Option τ

section Catalogs

variable {ν τ : Type*} [DecidableEq ν]

def Catalog.rename (c : Catalog ν τ) (r : Rename ν) : Catalog ν τ := fun n =>
  if n = r.target then c r.source else if n = r.source then none else c n

/-- The source is there and the target is free. -/
def Catalog.due (c : Catalog ν τ) (r : Rename ν) : Bool := (c r.source).isSome && (c r.target).isNone

def Catalog.renameAll (c : Catalog ν τ) (rs : List (Rename ν)) : Catalog ν τ := rs.foldl Catalog.rename c

/-- Carry out what is due of a list of renames, one after the other. -/
def Catalog.adopt (c : Catalog ν τ) (rs : List (Rename ν)) : Catalog ν τ :=
  rs.foldl (fun c r => if c.due r then c.rename r else c) c

/-- No target is a source, and a target has only one source. -/
def Apart (S : Rename ν → Prop) : Prop :=
  ∀ r r', S r → S r' → r.target ≠ r'.source ∧ (r.target = r'.target → r.source = r'.source)

variable {c c' : Catalog ν τ} {r m : Rename ν} {rs ms : List (Rename ν)} {n : ν}

omit [DecidableEq ν] in
theorem Catalog.due_eq_true : c.due r = true ↔ (c r.source).isSome ∧ c r.target = none := by
  simp [Catalog.due]

omit [DecidableEq ν] in
theorem Catalog.due_congr (hs : c' r.source = c r.source) (ht : c' r.target = c r.target) :
    c'.due r = c.due r := by
  rw [Catalog.due, Catalog.due, hs, ht]

theorem Catalog.rename_target : c.rename r r.target = c r.source := by simp [Catalog.rename]

theorem Catalog.rename_source (h : r.source ≠ r.target) : c.rename r r.source = none := by
  simp [Catalog.rename, h]

theorem Catalog.rename_of_ne (ht : n ≠ r.target) (hs : n ≠ r.source) : c.rename r n = c n := by
  simp [Catalog.rename, ht, hs]

@[simp] theorem Catalog.renameAll_nil : c.renameAll [] = c := rfl

@[simp] theorem Catalog.renameAll_cons : c.renameAll (r :: rs) = (c.rename r).renameAll rs := rfl

/-- A name the renames do not mention keeps its table. -/
theorem Catalog.renameAll_of_ne (ht : ∀ m ∈ ms, n ≠ m.target) (hs : ∀ m ∈ ms, n ≠ m.source) :
    c.renameAll ms n = c n := by
  induction ms generalizing c with
  | nil => rfl
  | cons m ms ih =>
    rw [renameAll_cons, ih (fun m' hm => ht m' (.tail _ hm)) (fun m' hm => hs m' (.tail _ hm)),
      rename_of_ne (ht m (.head _)) (hs m (.head _))]

/-- A name that is no target and has lost its table stays without one. -/
theorem Catalog.renameAll_none (ht : ∀ m ∈ ms, n ≠ m.target) (h : c n = none) :
    c.renameAll ms n = none := by
  induction ms generalizing c with
  | nil => exact h
  | cons m ms ih =>
    rw [renameAll_cons]
    refine ih (fun m' hm => ht m' (.tail _ hm)) ?_
    rw [Catalog.rename, if_neg (ht m (.head _)), h, ite_self]

theorem Catalog.renameAll_source (ht : ∀ m' ∈ ms, m.source ≠ m'.target) (hm : m ∈ ms) :
    c.renameAll ms m.source = none := by
  induction ms generalizing c with
  | nil => cases hm
  | cons m' ms ih =>
    rw [renameAll_cons]
    have htail : ∀ m' ∈ ms, m.source ≠ m'.target := fun m' h => ht m' (.tail _ h)
    rcases List.mem_cons.mp hm with rfl | hm
    · exact renameAll_none htail (rename_source (ht m (.head _)))
    · exact ih htail hm

/-- A target ends up with the table its source had. -/
theorem Catalog.renameAll_target (ha : Apart (· ∈ ms)) (hu : ms.Pairwise fun a b => a.source ≠ b.source)
    (hm : m ∈ ms) : c.renameAll ms m.target = c m.source := by
  induction ms generalizing c with
  | nil => cases hm
  | cons m' ms ih =>
    obtain ⟨hm', hu⟩ := List.pairwise_cons.mp hu
    rw [renameAll_cons]
    rcases List.mem_cons.mp hm with rfl | hm
    · rw [renameAll_of_ne _ fun a h => (ha m a (.head _) (.tail _ h)).1, rename_target]
      exact fun a h he => hm' a h ((ha m a (.head _) (.tail _ h)).2 he)
    · rw [ih (fun a b h h' => ha a b (.tail _ h) (.tail _ h')) hu hm, rename_of_ne _ (hm' m hm).symm]
      exact fun h => (ha m' m (.head _) (.tail _ hm)).1 h.symm

/-- Renames that stay apart do not change what is due of one another. -/
theorem Catalog.due_rename (hs : r.source ≠ m.source) (hst : r.source ≠ m.target)
    (hts : r.target ≠ m.source) (htt : r.target ≠ m.target) : (c.rename m).due r = c.due r :=
  due_congr (rename_of_ne hst hs) (rename_of_ne htt hts)

/-- Adopting is carrying out what is due from the start. -/
theorem Catalog.adopt_eq (ha : Apart (· ∈ rs)) (hu : rs.Pairwise fun a b => a.source ≠ b.source) :
    c.adopt rs = c.renameAll (rs.filter c.due) := by
  induction rs generalizing c with
  | nil => rfl
  | cons r rs ih =>
    obtain ⟨hr, hu⟩ := List.pairwise_cons.mp hu
    have ha' : Apart (· ∈ rs) := fun a b h h' => ha a b (.tail _ h) (.tail _ h')
    have hcons : c.adopt (r :: rs) = (if c.due r then c.rename r else c).adopt rs := rfl
    rw [hcons, List.filter_cons]
    by_cases hd : c.due r = true
    · have hdue : rs.filter (c.rename r).due = rs.filter c.due := by
        refine List.filter_congr fun r' h' => due_rename (hr r' h').symm ?_ ?_ ?_
        · exact fun h => (ha r r' (.head _) (.tail _ h')).1 h.symm
        · exact (ha r' r (.tail _ h') (.head _)).1
        · exact fun h => hr r' h' ((ha r' r (.tail _ h') (.head _)).2 h).symm
      rw [if_pos hd, if_pos hd, ih ha' hu, hdue, renameAll_cons]
    · rw [if_neg hd, if_neg hd, ih ha' hu]

/-! What the renames of one transaction do to a rename of another, when they all stay apart. -/

section Others

variable {S : Rename ν → Prop} (ha : Apart S) (hr : S r) (hms : ∀ m ∈ ms, S m)

include ha hr hms

theorem Catalog.gone_stays (h : c r.source = none) : c.renameAll ms r.source = none :=
  renameAll_none (fun m hm he => (ha m r (hms m hm) hr).1 he.symm) h

theorem Catalog.isSome_of_renameAll (h : (c.renameAll ms r.source).isSome) : (c r.source).isSome := by
  by_contra hn
  rw [Option.not_isSome_iff_eq_none] at hn
  rw [gone_stays ha hr hms hn] at h
  cases h

/-- A rename whose source another transaction did not take still finds its source. -/
theorem Catalog.source_stays (hs : ∀ m ∈ ms, r.source ≠ m.source) :
    c.renameAll ms r.source = c r.source :=
  renameAll_of_ne (fun m hm he => (ha m r (hms m hm) hr).1 he.symm) hs

theorem Catalog.target_stays (hs : ∀ m ∈ ms, r.source ≠ m.source) :
    c.renameAll ms r.target = c r.target :=
  renameAll_of_ne (fun m hm he => hs m hm ((ha r m hr (hms m hm)).2 he)) fun m hm =>
    (ha r m hr (hms m hm)).1

/-- A target that is taken, or that one of the renames fills, is taken afterwards. -/
theorem Catalog.taken_stays (hu : ms.Pairwise fun a b => a.source ≠ b.source)
    (hdue : ∀ m ∈ ms, c.due m) (h : (c r.target).isSome ∨ ∃ m ∈ ms, m.target = r.target) :
    (c.renameAll ms r.target).isSome := by
  by_cases hm : ∃ m ∈ ms, m.target = r.target
  · obtain ⟨m, hm, he⟩ := hm
    rw [← he, renameAll_target (fun a b h h' => ha a b (hms a h) (hms b h')) hu hm]
    exact (due_eq_true.mp (hdue m hm)).1
  · rw [renameAll_of_ne (fun m h he => hm ⟨m, h, he.symm⟩) fun m h => (ha r m hr (hms m h)).1]
    exact h.resolve_right hm

/-- What is due of a rename changes only by taking its source. -/
theorem Catalog.due_stays (hu : ms.Pairwise fun a b => a.source ≠ b.source)
    (hdue : ∀ m ∈ ms, c.due m) (hs : c.due r = true → ∀ m ∈ ms, r.source ≠ m.source) :
    (c.renameAll ms).due r = c.due r := by
  by_cases hd : c.due r = true
  · exact due_congr (source_stays ha hr hms (hs hd)) (target_stays ha hr hms (hs hd))
  · have hnot : (c.renameAll ms).due r ≠ true := by
      intro h
      obtain ⟨hsome, hnone⟩ := due_eq_true.mp h
      refine hd (due_eq_true.mpr ⟨isSome_of_renameAll ha hr hms hsome, ?_⟩)
      by_contra hn
      rw [← Ne, Option.ne_none_iff_isSome] at hn
      have htaken := taken_stays ha hr hms hu hdue (.inl hn)
      rw [hnone] at htaken
      cases htaken
    rw [Bool.eq_false_iff.mpr hd, Bool.eq_false_iff.mpr hnot]

end Others

section Adopted

variable (ha : Apart (· ∈ rs)) (hu : rs.Pairwise fun a b => a.source ≠ b.source)

include ha hu

theorem Catalog.adopt_target (hr : r ∈ rs) (hd : c.due r = true) : c.adopt rs r.target = c r.source := by
  rw [adopt_eq ha hu]
  exact renameAll_target (fun a b h h' => ha a b (List.mem_of_mem_filter h) (List.mem_of_mem_filter h'))
    (hu.sublist List.filter_sublist) (List.mem_filter.mpr ⟨hr, hd⟩)

theorem Catalog.adopt_source (hr : r ∈ rs) (hd : c.due r = true) : c.adopt rs r.source = none := by
  rw [adopt_eq ha hu]
  exact renameAll_source (fun m hm h => (ha m r (List.mem_of_mem_filter hm) hr).1 h.symm)
    (List.mem_filter.mpr ⟨hr, hd⟩)

/-- Every other name keeps its table. -/
theorem Catalog.adopt_of_ne (h : ∀ r ∈ rs, c.due r = true → n ≠ r.source ∧ n ≠ r.target) :
    c.adopt rs n = c n := by
  rw [adopt_eq ha hu]
  refine renameAll_of_ne (fun m hm => ?_) fun m hm => ?_
  · exact (h m (List.mem_filter.mp hm).1 (List.mem_filter.mp hm).2).2
  · exact (h m (List.mem_filter.mp hm).1 (List.mem_filter.mp hm).2).1

theorem Catalog.due_adopt (hr : r ∈ rs) : (c.adopt rs).due r = false := by
  by_cases hd : c.due r = true
  · simp [due, adopt_source ha hu hr hd]
  · have hstays := due_stays (c := c) ha hr (fun m hm => List.mem_of_mem_filter hm)
      (hu.sublist List.filter_sublist) (fun m hm => (List.mem_filter.mp hm).2) fun h => absurd h hd
    rw [adopt_eq ha hu, hstays]
    simpa using hd

/-- Nothing is left to adopt the second time. -/
theorem Catalog.adopt_adopt : (c.adopt rs).adopt rs = c.adopt rs := by
  have hnone : rs.filter (c.adopt rs).due = [] :=
    List.filter_eq_nil_iff.mpr fun r hr => by simp [due_adopt ha hu hr]
  rw [adopt_eq (c := c.adopt rs) ha hu, hnone]
  rfl

end Adopted

end Catalogs

/-! ### Transactions -/

/-- An open transaction: the renames it has made, oldest first, and those it had made at each
of its savepoints, latest first. -/
structure Session (ν : Type*) where
  moves : List (Rename ν)
  savepoints : List (List (Rename ν))
  deriving DecidableEq

namespace Session

variable {ν : Type*}

/-- No transaction, or one that has made nothing yet. -/
def closed : Session ν := ⟨[], []⟩

def savepoint (x : Session ν) : Session ν := ⟨x.moves, x.moves :: x.savepoints⟩

def rename (x : Session ν) (r : Rename ν) : Session ν := ⟨x.moves ++ [r], x.savepoints⟩

def release (x : Session ν) : Session ν := ⟨x.moves, x.savepoints.tail⟩

def rollbackTo (x : Session ν) : Session ν := ⟨x.savepoints.headD x.moves, x.savepoints⟩

end Session

/-- The committed catalogue and the transactions open on it. -/
structure Server (ι ν τ : Type*) where
  committed : Catalog ν τ
  sessions : ι → Session ν

/-- What the server answers to `ALTER TABLE .. RENAME TO ..`. -/
inductive Altered where
  | renamed | waits | noSuchTable | duplicateTable
  deriving DecidableEq

namespace Server

variable {ι ν τ : Type*} [DecidableEq ι] [DecidableEq ν]

/-- The catalogue a statement of a transaction reads: what is committed by then, and its own
renames. -/
def view (s : Server ι ν τ) (i : ι) : Catalog ν τ := s.committed.renameAll (s.sessions i).moves

/-- The name is resolved, the table locked against every other transaction, and the new name
entered; what another open transaction has locked or entered is waited for, and looked up
again once that transaction has ended. -/
def alter [Fintype ι] (s : Server ι ν τ) (i : ι) (r : Rename ν) : Altered :=
  if (s.view i r.source).isNone then .noSuchTable
  else if ∃ j, j ≠ i ∧ ∃ m ∈ (s.sessions j).moves, m.source = r.source then .waits
  else if (s.view i r.target).isSome then .duplicateTable
  else if ∃ j, j ≠ i ∧ ∃ m ∈ (s.sessions j).moves, m.target = r.target then .waits
  else .renamed

def put (s : Server ι ν τ) (i : ι) (x : Session ν) : Server ι ν τ :=
  { s with sessions := Function.update s.sessions i x }

def commit (s : Server ι ν τ) (i : ι) : Server ι ν τ :=
  { committed := s.view i, sessions := Function.update s.sessions i .closed }

section Alter

variable [Fintype ι] {s : Server ι ν τ} {i : ι} {r : Rename ν}

theorem alter_eq_noSuchTable (h : s.alter i r = .noSuchTable) : s.view i r.source = none := by
  unfold alter at h
  split_ifs at h with hs
  simpa using hs

theorem alter_eq_duplicateTable (h : s.alter i r = .duplicateTable) :
    (s.view i r.source).isSome ∧ (s.view i r.target).isSome := by
  unfold alter at h
  split_ifs at h with hs hl ht
  exact ⟨by simpa [Option.isSome_iff_ne_none] using hs, ht⟩

/-- A rename that is made is due in the transaction's view, and no other holds its table. -/
theorem alter_eq_renamed (h : s.alter i r = .renamed) :
    (s.view i).due r = true ∧ ∀ j, j ≠ i → ∀ m ∈ (s.sessions j).moves, m.source ≠ r.source := by
  unfold alter at h
  split_ifs at h with hs hl ht
  refine ⟨?_, fun j hj m hm he => hl ⟨j, hj, m, hm, he⟩⟩
  exact Catalog.due_eq_true.mpr ⟨by simpa [Option.isSome_iff_ne_none] using hs, by simpa using ht⟩

/-- A transaction that no other is in the way of makes a rename that is due. -/
theorem alter_of_alone (h : ∀ j, j ≠ i → (s.sessions j).moves = []) (hd : (s.view i).due r = true) :
    s.alter i r = .renamed := by
  obtain ⟨hs, ht⟩ := Catalog.due_eq_true.mp hd
  have hnone : ∀ p : Rename ν → Prop, ¬ ∃ j, j ≠ i ∧ ∃ m ∈ (s.sessions j).moves, p m := by
    rintro p ⟨j, hj, m, hm, -⟩
    rw [h j hj] at hm
    cases hm
  rw [alter, if_neg (by simpa [Option.isSome_iff_ne_none] using hs), if_neg (hnone _), if_neg (by simp [ht]),
    if_neg (hnone _)]

/-- A rename waits only for another transaction that holds its table or has taken its name. -/
theorem alter_eq_waits (h : s.alter i r = .waits) : ∃ j, j ≠ i ∧ ∃ m ∈ (s.sessions j).moves,
    m.source = r.source ∨ m.target = r.target := by
  unfold alter at h
  split_ifs at h with hs hl ht hn
  · obtain ⟨j, hj, m, hm, he⟩ := hl
    exact ⟨j, hj, m, hm, .inl he⟩
  · obtain ⟨j, hj, m, hm, he⟩ := hn
    exact ⟨j, hj, m, hm, .inr he⟩

end Alter

end Server

end FinP2PAdapter.Renames
