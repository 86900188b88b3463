import FinP2PAdapter.Library.Machine
import Mathlib.Data.List.Nodup

/-! Workers that submit transactions for jobs on a ledger they do not control. A
worker prepares a transaction, submits it, may quit at any time, and reports a
transaction of its own that was mined. Two rules make this safe over any
interleaving. If a worker only prepares a transaction for a job nobody else is
preparing one for and no transaction of which may still be mined, then at most
one transaction of a job is ever mined and at most one reported. If a worker
quits a submitted transaction only after it was reverted, then every transaction
that was mined is reported or still held by its worker. -/

namespace FinP2PAdapter.Submissions

open Machine

inductive Status where
  | pending | mined | reverted
  deriving DecidableEq, Repr

structure Tx (J A : Type*) where
  job : J
  payload : A
  status : Status

/-- What a worker is doing; the last number of `sent` is its transaction's. -/
inductive Phase (J A : Type*) where
  | preparing (job : J) (payload : A)
  | sent (job : J) (payload : A) (tx : ℕ)

structure Report (J A : Type*) where
  tx : ℕ
  job : J
  payload : A

structure State (J A : Type*) where
  worker : ℕ → Option (Phase J A)
  txs : List (Tx J A)
  reports : List (Report J A)

inductive Action (J A : Type*) where
  | prepare (w : ℕ) (job : J) (payload : A)
  | submit (w : ℕ)
  | quit (w : ℕ)
  | settle (tx : ℕ) (mined : Bool)
  | report (w : ℕ)

variable {J A : Type*}

def init : State J A := ⟨fun _ => none, [], []⟩

def State.put (s : State J A) (w : ℕ) (phase : Option (Phase J A)) : State J A :=
  { s with worker := Function.update s.worker w phase }

def State.submit (s : State J A) (w : ℕ) (job : J) (payload : A) : State J A :=
  { s.put w (some (.sent job payload s.txs.length)) with txs := s.txs ++ [⟨job, payload, .pending⟩] }

def outcome (mined : Bool) : Status := if mined then .mined else .reverted

def State.settle (s : State J A) (i : ℕ) (t : Tx J A) (mined : Bool) : State J A :=
  { s with txs := s.txs.set i { t with status := outcome mined } }

def State.report (s : State J A) (w : ℕ) (job : J) (payload : A) (i : ℕ) : State J A :=
  { s.put w none with reports := ⟨i, job, payload⟩ :: s.reports }

/-- The rules of the ledger and of the workers, as a relation. -/
inductive Step (s : State J A) : Action J A → State J A → Prop where
  | prepare {w : ℕ} {job : J} {payload : A} (h : s.worker w = none) :
    Step s (.prepare w job payload) (s.put w (some (.preparing job payload)))
  | submit {w : ℕ} {job : J} {payload : A} (h : s.worker w = some (.preparing job payload)) :
    Step s (.submit w) (s.submit w job payload)
  | quit {w : ℕ} (h : s.worker w ≠ none) : Step s (.quit w) (s.put w none)
  | settle {i : ℕ} {t : Tx J A} {mined : Bool} (h : s.txs[i]? = some t) (hp : t.status = .pending) :
    Step s (.settle i mined) (s.settle i t mined)
  | report {w : ℕ} {job : J} {payload : A} {i : ℕ} {t : Tx J A}
    (h : s.worker w = some (.sent job payload i)) (ht : s.txs[i]? = some t) (hm : t.status = .mined) :
    Step s (.report w) (s.report w job payload i)

variable {s s' : State J A} {a : Action J A}

@[simp] theorem put_worker (s : State J A) (w v : ℕ) (phase : Option (Phase J A)) :
    (s.put w phase).worker v = if v = w then phase else s.worker v := by
  simp [State.put, Function.update_apply]

@[simp] theorem put_txs (s : State J A) (w : ℕ) (phase : Option (Phase J A)) :
    (s.put w phase).txs = s.txs := rfl

@[simp] theorem put_reports (s : State J A) (w : ℕ) (phase : Option (Phase J A)) :
    (s.put w phase).reports = s.reports := rfl

theorem put_self {w : ℕ} {phase : Option (Phase J A)} (h : s.worker w = phase) : s.put w phase = s := by
  rw [State.put, ← h, Function.update_eq_self]

/-- Taking a worker off is no step if it has nothing to do, and a quit otherwise. -/
theorem put_none_cases (s : State J A) (w : ℕ) : s.put w none = s ∨
    Step s (.quit w) (s.put w none) := by
  by_cases h : s.worker w = none
  · exact .inl (put_self h)
  · exact .inr (.quit h)

/-! ### Transactions and their reports -/

/-- What holds in every run: a submitted transaction is the worker's own and not
yet reported, and a report is of one mined transaction. -/
structure Inv (s : State J A) : Prop where
  sent_tx : ∀ w job payload i, s.worker w = some (.sent job payload i) →
    ∃ t, s.txs[i]? = some t ∧ t.job = job ∧ t.payload = payload
  sent_unique : ∀ v w i job job' payload payload', s.worker v = some (.sent job payload i) →
    s.worker w = some (.sent job' payload' i) → v = w
  sent_unreported : ∀ w job payload i, s.worker w = some (.sent job payload i) →
    i ∉ s.reports.map Report.tx
  report_tx : ∀ r ∈ s.reports, ∃ t, s.txs[r.tx]? = some t ∧ t.job = r.job ∧ t.payload = r.payload ∧
    t.status = .mined
  reports_nodup : (s.reports.map Report.tx).Nodup

/-- Taking a worker off, or to a preparation, keeps the invariant. -/
theorem Inv.put (h : Inv s) (w : ℕ) {phase : Option (Phase J A)}
    (hp : ∀ job payload i, phase ≠ some (.sent job payload i)) : Inv (s.put w phase) where
  sent_tx := by
    intro v job payload i hv
    rw [put_worker] at hv
    split_ifs at hv
    · exact absurd hv (hp _ _ _)
    · exact h.sent_tx v job payload i hv
  sent_unique := by
    intro u v i job job' payload payload' hu hv
    rw [put_worker] at hu hv
    split_ifs at hu hv
    · exact absurd hu (hp _ _ _)
    · exact absurd hu (hp _ _ _)
    · exact absurd hv (hp _ _ _)
    · exact h.sent_unique u v i _ _ _ _ hu hv
  sent_unreported := by
    intro v job payload i hv
    rw [put_worker] at hv
    split_ifs at hv
    · exact absurd hv (hp _ _ _)
    · exact h.sent_unreported v job payload i hv
  report_tx := h.report_tx
  reports_nodup := h.reports_nodup

theorem getElem?_set_status {txs : List (Tx J A)} {i k : ℕ} {t : Tx J A} (h : txs[i]? = some t)
    (status : Status) :
    (txs.set i { t with status := status })[k]? = if k = i then some { t with status := status }
      else txs[k]? := by
  have hlt : i < txs.length := (List.getElem?_eq_some_iff.mp h).1
  rw [List.getElem?_set]
  by_cases hk : i = k
  · subst hk
    simp [hlt]
  · simp [hk, Ne.symm hk]

theorem Inv.submit (h : Inv s) {w : ℕ} {job : J} {payload : A} : Inv (s.submit w job payload) where
  sent_tx := by
    intro v job' payload' i hv
    simp only [State.submit, put_worker] at hv
    split_ifs at hv
    · cases hv
      exact ⟨⟨job, payload, .pending⟩, by simp [State.submit], rfl, rfl⟩
    · obtain ⟨t, ht, hj⟩ := h.sent_tx v job' payload' i hv
      have hlt : i < s.txs.length := (List.getElem?_eq_some_iff.mp ht).1
      exact ⟨t, by simpa [State.submit, List.getElem?_append_left hlt] using ht, hj⟩
  sent_unique := by
    -- the new number is larger than every one in use
    have hfresh : ∀ v job' payload', s.worker v ≠ some (.sent job' payload' s.txs.length) := by
      intro v job' payload' hv
      obtain ⟨t, ht, -⟩ := h.sent_tx v job' payload' _ hv
      simp at ht
    intro u v i job₁ job₂ payload₁ payload₂ hu hv
    simp only [State.submit, put_worker] at hu hv
    split_ifs at hu hv with h₁ h₂ h₃
    · rw [h₁, h₂]
    · cases hu
      exact absurd hv (hfresh _ _ _)
    · cases hv
      exact absurd hu (hfresh _ _ _)
    · exact h.sent_unique u v i _ _ _ _ hu hv
  sent_unreported := by
    intro v job' payload' i hv
    simp only [State.submit, put_worker] at hv
    split_ifs at hv
    · cases hv
      intro hm
      obtain ⟨r, hr, he⟩ := List.mem_map.mp hm
      obtain ⟨t, ht, -⟩ := h.report_tx r hr
      rw [he] at ht
      simp at ht
    · exact h.sent_unreported v job' payload' i hv
  report_tx := by
    intro r hr
    obtain ⟨t, ht, hrest⟩ := h.report_tx r hr
    have hlt : r.tx < s.txs.length := (List.getElem?_eq_some_iff.mp ht).1
    exact ⟨t, by simpa [State.submit, List.getElem?_append_left hlt] using ht, hrest⟩
  reports_nodup := h.reports_nodup

theorem Inv.settle (h : Inv s) {i : ℕ} {t : Tx J A} {mined : Bool} (ht : s.txs[i]? = some t)
    (hp : t.status = .pending) : Inv (s.settle i t mined) where
  sent_tx := by
    intro w job payload k hw
    obtain ⟨u, hu, hj⟩ := h.sent_tx w job payload k hw
    simp only [State.settle, getElem?_set_status ht]
    split_ifs with hk
    · subst hk
      rw [ht] at hu
      cases hu
      exact ⟨_, rfl, hj⟩
    · exact ⟨u, hu, hj⟩
  sent_unique := h.sent_unique
  sent_unreported := h.sent_unreported
  report_tx := by
    intro r hr
    obtain ⟨u, hu, hj, hpay, hm⟩ := h.report_tx r hr
    simp only [State.settle, getElem?_set_status ht]
    split_ifs with hk
    · -- a reported transaction is no longer pending
      rw [hk, ht] at hu
      cases hu
      rw [hp] at hm
      cases hm
    · exact ⟨u, hu, hj, hpay, hm⟩
  reports_nodup := h.reports_nodup

theorem Inv.report (h : Inv s) {w i : ℕ} {job : J} {payload : A} {t : Tx J A}
    (hw : s.worker w = some (.sent job payload i)) (ht : s.txs[i]? = some t) (hm : t.status = .mined) :
    Inv (s.report w job payload i) := by
  have hput : Inv (s.put w none) := h.put w (by simp)
  refine ⟨hput.sent_tx, hput.sent_unique, ?_, ?_, ?_⟩
  · intro v job' payload' k hv
    simp only [State.report, put_worker] at hv
    split_ifs at hv with hvw
    simp only [State.report, List.map_cons, List.mem_cons, not_or]
    refine ⟨?_, h.sent_unreported v job' payload' k hv⟩
    rintro rfl
    exact hvw (h.sent_unique v w k _ _ _ _ hv hw)
  · intro r hr
    rcases List.mem_cons.mp hr with rfl | hr
    · obtain ⟨u, hu, hj, hpay⟩ := h.sent_tx w job payload i hw
      rw [ht] at hu
      cases hu
      exact ⟨t, ht, hj, hpay, hm⟩
    · exact h.report_tx r hr
  · simp only [State.report, List.map_cons, List.nodup_cons]
    exact ⟨h.sent_unreported w job payload i hw, h.reports_nodup⟩

theorem Inv.step (h : Inv s) (hs : Step s a s') : Inv s' := by
  cases hs with
  | prepare _ => exact h.put _ (by simp)
  | submit _ => exact h.submit
  | quit _ => exact h.put _ (by simp)
  | settle ht hp => exact h.settle ht hp
  | report hw ht hm => exact h.report hw ht hm

theorem inv_init : Inv (init : State J A) where
  sent_tx := by
    intro w job payload i hw
    cases hw
  sent_unique := by
    intro v w i job job' payload payload' hv
    cases hv
  sent_unreported := by
    intro w job payload i hw
    cases hw
  report_tx := by
    intro r hr
    cases hr
  reports_nodup := List.nodup_nil

theorem inv_of_runs {ok : State J A → Action J A → Prop} (h : Runs Step ok init s) : Inv s :=
  h.invariant inv_init fun _ _ _ hi _ hs => hi.step hs

/-! ### One transaction a job -/

/-- A preparation is for a job that nobody else is preparing for and no
transaction of which may still be mined. -/
def PreparesAlone (s : State J A) (a : Action J A) : Prop :=
  ∀ w job payload, a = .prepare w job payload →
    (∀ v payload', s.worker v ≠ some (.preparing job payload')) ∧
      ∀ t ∈ s.txs, t.job = job → t.status = .reverted

structure OnePerJob (s : State J A) : Prop where
  preparing_unique : ∀ v w job payload payload', s.worker v = some (.preparing job payload) →
    s.worker w = some (.preparing job payload') → v = w
  preparing_alone : ∀ w job payload, s.worker w = some (.preparing job payload) →
    ∀ t ∈ s.txs, t.job = job → t.status = .reverted
  live_unique : ∀ (i k : ℕ) (t u : Tx J A), s.txs[i]? = some t → s.txs[k]? = some u → t.job = u.job →
    t.status ≠ .reverted → u.status ≠ .reverted → i = k

/-- Taking a worker away from its preparation keeps one transaction a job. -/
theorem OnePerJob.put (h : OnePerJob s) (w : ℕ) {phase : Option (Phase J A)}
    (hp : ∀ job payload, phase ≠ some (.preparing job payload)) : OnePerJob (s.put w phase) where
  preparing_unique := by
    intro u v job payload payload' hu hv
    rw [put_worker] at hu hv
    split_ifs at hu hv
    · exact absurd hu (hp _ _)
    · exact absurd hu (hp _ _)
    · exact absurd hv (hp _ _)
    · exact h.preparing_unique u v job _ _ hu hv
  preparing_alone := by
    intro v job payload hv
    rw [put_worker] at hv
    split_ifs at hv
    · exact absurd hv (hp _ _)
    · exact h.preparing_alone v job payload hv
  live_unique := h.live_unique

theorem OnePerJob.step (h : OnePerJob s) (hok : PreparesAlone s a) (hs : Step s a s') :
    OnePerJob s' := by
  cases hs with
  | @prepare w job payload hw =>
    obtain ⟨hnobody, hnone⟩ := hok w job payload rfl
    refine ⟨?_, ?_, h.live_unique⟩
    · intro u v job' payload₁ payload₂ hu hv
      rw [put_worker] at hu hv
      split_ifs at hu hv with h₁ h₂ h₃
      · rw [h₁, h₂]
      · cases hu
        exact absurd hv (hnobody _ _)
      · cases hv
        exact absurd hu (hnobody _ _)
      · exact h.preparing_unique u v job' _ _ hu hv
    · intro v job' payload' hv
      rw [put_worker] at hv
      split_ifs at hv
      · cases hv
        exact hnone
      · exact h.preparing_alone v job' payload' hv
  | @submit w job payload hw =>
    have hput : OnePerJob (s.put w (some (.sent job payload s.txs.length))) := h.put w (by simp)
    have halone := h.preparing_alone w job payload hw
    refine ⟨hput.preparing_unique, ?_, ?_⟩
    · intro v job' payload' hv t ht htj
      simp only [State.submit, put_worker] at hv
      split_ifs at hv with hvw
      · cases hv
      · rcases List.mem_append.mp ht with ht | ht
        · exact h.preparing_alone v job' payload' hv t ht htj
        · -- the submitting worker was the only one preparing for the job
          rw [List.mem_singleton] at ht
          subst ht
          obtain rfl : job = job' := htj
          exact absurd (h.preparing_unique v w job _ _ hv hw) hvw
    · intro i k t u ht hu hj hts hus
      simp only [State.submit, List.getElem?_append] at ht hu
      split_ifs at ht hu with hi hk hk
      · exact h.live_unique i k t u ht hu hj hts hus
      · have huj : u = ⟨job, payload, .pending⟩ := by simpa using List.mem_of_getElem? hu
        subst huj
        exact absurd (halone t (List.mem_of_getElem? ht) hj) hts
      · have htj : t = ⟨job, payload, .pending⟩ := by simpa using List.mem_of_getElem? ht
        subst htj
        exact absurd (halone u (List.mem_of_getElem? hu) hj.symm) hus
      · have hi' := (List.getElem?_eq_some_iff.mp ht).1
        have hk' := (List.getElem?_eq_some_iff.mp hu).1
        simp only [List.length_cons, List.length_nil] at hi' hk'
        omega
  | quit hw => exact h.put _ (by simp)
  | @settle i t mined ht hp =>
    have hjob : ∀ (k : ℕ) (u : Tx J A), (s.settle i t mined).txs[k]? = some u →
        ∃ u', s.txs[k]? = some u' ∧ u'.job = u.job ∧
          (u'.status = .reverted → u.status = .reverted) := by
      intro k u hu
      simp only [State.settle, getElem?_set_status ht] at hu
      split_ifs at hu with hk
      · cases hu
        exact ⟨t, hk ▸ ht, rfl, by simp [hp]⟩
      · exact ⟨u, hu, rfl, id⟩
    refine ⟨h.preparing_unique, ?_, ?_⟩
    · intro w job payload hw u hu huj
      obtain ⟨k, hk⟩ := List.mem_iff_getElem?.mp hu
      obtain ⟨u', hu', hj, himp⟩ := hjob k u hk
      exact himp (h.preparing_alone w job payload hw u' (List.mem_of_getElem? hu') (hj.trans huj))
    · intro j k x y hx hy hxy hxs hys
      obtain ⟨x', hx', hxj, hxi⟩ := hjob j x hx
      obtain ⟨y', hy', hyj, hyi⟩ := hjob k y hy
      exact h.live_unique j k x' y' hx' hy' (by rw [hxj, hyj, hxy]) (fun he => hxs (hxi he))
        fun he => hys (hyi he)
  | @report w job payload i t hw ht hm =>
    have hput : OnePerJob (s.put w none) := h.put w (by simp)
    exact ⟨hput.preparing_unique, hput.preparing_alone, hput.live_unique⟩

theorem onePerJob_init : OnePerJob (init : State J A) where
  preparing_unique := by
    intro v w job payload payload' hv
    cases hv
  preparing_alone := by
    intro w job payload hw
    cases hw
  live_unique := by
    intro i k t u ht
    cases ht

/-- Of the transactions of a job at most one is mined. -/
theorem mined_unique (h : Runs Step PreparesAlone init s) {i k : ℕ} {t u : Tx J A}
    (ht : s.txs[i]? = some t) (hu : s.txs[k]? = some u) (hj : t.job = u.job) (htm : t.status = .mined)
    (hum : u.status = .mined) : i = k := by
  have hone : OnePerJob s := h.invariant onePerJob_init fun _ _ _ hi hok hs => OnePerJob.step hi hok hs
  exact hone.live_unique i k t u ht hu hj (by simp [htm]) (by simp [hum])

/-- A job is reported at most once. -/
theorem reports_unique (h : Runs Step PreparesAlone init s) : (s.reports.map Report.job).Nodup := by
  have hinv := inv_of_runs h
  refine List.Nodup.map_on ?_ (List.Nodup.of_map _ hinv.reports_nodup)
  intro r hr q hq hj
  obtain ⟨t, ht, htj, htp, htm⟩ := hinv.report_tx r hr
  obtain ⟨u, hu, huj, hup, hum⟩ := hinv.report_tx q hq
  have htx : r.tx = q.tx := mined_unique h ht hu (by rw [htj, huj, hj]) htm hum
  rw [htx, hu] at ht
  cases ht
  cases r
  cases q
  simp_all

/-! ### No transaction forgotten -/

/-- A worker that quits holds no submitted transaction but a reverted one. -/
def QuitsReverted (s : State J A) (a : Action J A) : Prop :=
  ∀ w job payload i, a = .quit w → s.worker w = some (.sent job payload i) →
    ∃ t, s.txs[i]? = some t ∧ t.status = .reverted

/-- Every transaction that is not reverted is reported or held by its worker. -/
def Accounted (s : State J A) : Prop :=
  ∀ (i : ℕ) (t : Tx J A), s.txs[i]? = some t → t.status ≠ .reverted →
    i ∈ s.reports.map Report.tx ∨ ∃ w job payload, s.worker w = some (.sent job payload i)

theorem Accounted.step (h : Accounted s) (hok : QuitsReverted s a) (hs : Step s a s') :
    Accounted s' := by
  intro i t ht hlive
  cases hs with
  | @prepare w job payload hw =>
    rcases h i t ht hlive with hr | ⟨v, job', payload', hv⟩
    · exact .inl hr
    · refine .inr ⟨v, job', payload', ?_⟩
      rw [put_worker, if_neg (by rintro rfl; rw [hw] at hv; cases hv)]
      exact hv
  | @submit w job payload hw =>
    simp only [State.submit, List.getElem?_append] at ht
    split_ifs at ht with hi
    · rcases h i t ht hlive with hr | ⟨v, job', payload', hv⟩
      · exact .inl hr
      · refine .inr ⟨v, job', payload', ?_⟩
        rw [State.submit, put_worker, if_neg (by rintro rfl; rw [hw] at hv; cases hv)]
        exact hv
    · have hi' := (List.getElem?_eq_some_iff.mp ht).1
      simp only [List.length_cons, List.length_nil] at hi'
      have hil : i = s.txs.length := by omega
      exact .inr ⟨w, job, payload, by simp [State.submit, hil]⟩
  | @quit w hw =>
    rcases h i t ht hlive with hr | ⟨v, job', payload', hv⟩
    · exact .inl hr
    · have hvw : v ≠ w := by
        rintro rfl
        obtain ⟨u, hu, hrev⟩ := hok v job' payload' i rfl hv
        rw [show s.txs[i]? = some t from ht] at hu
        cases hu
        exact hlive hrev
      exact .inr ⟨v, job', payload', by rw [put_worker, if_neg hvw]; exact hv⟩
  | @settle k u mined hu hp =>
    simp only [State.settle, getElem?_set_status hu] at ht
    split_ifs at ht with hk
    · subst hk
      exact h i u hu (by simp [hp])
    · exact h i t ht hlive
  | @report w job payload k u hw hu hm =>
    rcases h i t ht hlive with hr | ⟨v, job', payload', hv⟩
    · exact .inl (List.mem_cons_of_mem _ hr)
    · by_cases hvw : v = w
      · subst hvw
        rw [hw] at hv
        cases hv
        exact .inl List.mem_cons_self
      · exact .inr ⟨v, job', payload', by rw [State.report, put_worker, if_neg hvw]; exact hv⟩

theorem accounted_of_runs (h : Runs Step QuitsReverted init s) : Accounted s := by
  refine h.invariant ?_ fun _ _ _ hi hok hs => Accounted.step hi hok hs
  intro i t ht
  cases ht

end FinP2PAdapter.Submissions
