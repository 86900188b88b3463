import FinP2PAdapter.Library.Machine
import FinP2PAdapter.Scripts.Migration
import Mathlib.Data.List.Induction
import Mathlib.Data.List.Range

/-! Runs of the migration script over one list of assets, ended or stopped anywhere, one after the
other. They take each other's work up exactly from the ledgers that `Clear` describes. A token's roles
are granted late only if some asset brings the token's address in the operator contract's own
spelling, and a signer who may not grant them is in the way just there. What a run that ended has
achieved is there once its grants are mined. -/

namespace FinP2PAdapter.Scripts.Migration

open Accounts (truthy)
open Interrupts

variable {A : Type} [DecidableEq A]

/-! ### Runs -/

section Runs

variable {contracts : Contracts A} {orgId : String} {assets : List Asset} {s s' : State A}
  {startup : Startup} {rounds : List (Asset × Faults)}

omit [DecidableEq A] in
theorem call_cases (fault : Option Thrown) (s : State A) :
    exec (call fault) s = (.ok (), s) ∨ ∃ e, exec (call fault) s = (.error e, s) := by
  cases fault with
  | none => exact .inl rfl
  | some e => exact .inr ⟨e, rfl⟩

omit [DecidableEq A] in
theorem startUp_cases (startup : Startup) (s : State A) :
    exec (startUp startup) s = (.ok (), s) ∨ ∃ e, exec (startUp startup) s = (.error e, s) := by
  unfold startUp
  rcases call_cases startup.connect s with hconnect | ⟨e, hconnect⟩
  · rw [exec_bind_ok hconnect]
    split_ifs
    · cases truthy startup.defaultAssetStandard with
      | none => exact .inr ⟨_, rfl⟩
      | some _ => exact call_cases _ s
    · exact .inl rfl
  · exact .inr ⟨e, exec_bind_error hconnect⟩

def State.reset (s : State A) : State A := { s with migrated := 0, skipped := 0 }

/-- A run that ends has gone through its loop. -/
theorem loop_of_ends (h : exec (startMigration contracts orgId startup rounds) s = (.ok (), s')) :
    (rounds = [] ∧ s' = s) ∨
      (rounds ≠ [] ∧ exec (forM rounds (migrateAsset contracts orgId)) s.reset = (.ok (), s')) := by
  unfold startMigration at h
  rcases call_cases startup.getAssets s with hassets | ⟨e, hassets⟩
  · rw [exec_bind_ok hassets] at h
    cases rounds with
    | nil =>
      cases h
      exact .inl ⟨rfl, rfl⟩
    | cons round rounds =>
      refine .inr ⟨List.cons_ne_nil _ _, ?_⟩
      change exec (startUp startup >>= _) s = _ at h
      rcases startUp_cases startup s with hup | ⟨e, hup⟩
      · rw [exec_bind_ok hup] at h
        exact h
      · rw [exec_bind_error hup] at h
        cases h
  · rw [exec_bind_error hassets] at h
    cases h

/-- The start-up asks for nothing that is missing or fails. -/
def Startup.Passes (startup : Startup) : Prop :=
  startup.getAssets = none ∧ startup.connect = none ∧
    (startup.withRegistry = true →
      truthy startup.defaultAssetStandard ≠ none ∧ startup.verifyAssetStandardRegistered = none)

omit [DecidableEq A] in
theorem startUp_passes (h : startup.Passes) : exec (startUp startup) s = (.ok (), s) := by
  obtain ⟨-, hconnect, hregistry⟩ := h
  unfold startUp
  rw [hconnect]
  refine (exec_bind_ok rfl).trans ?_
  split_ifs with hwith
  · obtain ⟨hstandard, hverify⟩ := hregistry hwith
    cases hs : truthy startup.defaultAssetStandard with
    | none => exact absurd hs hstandard
    | some standard =>
      rw [hverify]
      rfl
  · rfl

theorem exec_of_passes (h : startup.Passes) (hne : rounds ≠ []) :
    exec (startMigration contracts orgId startup rounds) s =
      exec (forM rounds (migrateAsset contracts orgId)) s.reset := by
  unfold startMigration
  rw [h.1]
  refine (exec_bind_ok rfl).trans ?_
  cases rounds with
  | nil => exact absurd rfl hne
  | cons round rounds =>
    change exec (startUp startup >>= _) s = _
    rw [exec_bind_ok (startUp_passes h)]
    rfl

/-- A run of the script, with the calls of it that fail, and the fates that transactions in flight
met since the run before it. -/
structure Run where
  before : List Fate
  startup : Startup
  rounds : List (Asset × Faults)

def Run.outcome (contracts : Contracts A) (orgId : String) (run : Run) (s : State A) :
    Except Thrown Unit × State A :=
  exec (startMigration contracts orgId run.startup run.rounds) (s.settles run.before)

/-- A run over the listed assets, in which what fails by itself reads like no error of the contracts,
and which begins when no association of an earlier run is in flight. -/
structure Run.Over (run : Run) (assets : List Asset) (s : State A) : Prop where
  listed : run.rounds.map Prod.fst = assets
  foreign : ∀ round ∈ run.rounds, round.2.Foreign
  answered : (s.settles run.before).GrantsOnly

/-- No call of the run fails by itself. -/
def Run.Undisturbed (run : Run) : Prop :=
  run.startup.Passes ∧ ∀ round ∈ run.rounds, ∃ fates, round.2 = .none fates

/-- No transaction of the run that is numbered from `n` on is lost while it goes on. -/
def Run.Spares (n : ℕ) (run : Run) : Prop := ∀ round ∈ run.rounds, round.2.Spares n

/-- The rounds, with no call that fails by itself. -/
def calm (rounds : List (Asset × Faults)) : List (Asset × Faults) :=
  rounds.map fun round => (round.1, .none round.2.fates)

/-- A loop that ends goes as it does where no call fails by itself. -/
theorem calm_of_ends (hforeign : ∀ round ∈ rounds, round.2.Foreign)
    (h : exec (forM rounds (migrateAsset contracts orgId)) s = (.ok (), s')) :
    exec (forM (calm rounds) (migrateAsset contracts orgId)) s = (.ok (), s') := by
  unfold calm
  rw [List.forM_map]
  exact (Stops.forM fun round hround => stops_migrateAsset (hforeign round hround)).eq_of_ok h

theorem keeps_startMigration {P : State A → Prop} (hreset : ∀ s, P s → P s.reset)
    (hround : ∀ round ∈ rounds, Keeps P (migrateAsset contracts orgId round)) :
    Keeps P (startMigration contracts orgId startup rounds) := by
  refine Keeps.bind keeps_call fun _ => ?_
  split_ifs
  · refine Keeps.bind ?_ fun _ => Keeps.bind (Keeps.modifies hreset) fun _ => Keeps.forM hround
    intro s hs
    rcases startUp_cases startup s with hup | ⟨e, hup⟩
    · rw [hup]
      exact hs
    · rw [hup]
      exact hs
  · exact Keeps.pure

theorem kept_migrateAsset (round : Asset × Faults) (s : State A) :
    Kept s (exec (migrateAsset contracts orgId round) s).2 :=
  keeps_migrateAsset (fun _ _ hchange hu => hu.trans (kept_change hchange)) s (Kept.refl s)

/-- What a round keeps of each state it keeps, if what holds there is never undone. -/
theorem keeps_of_kept {P : State A → Prop} (h : ∀ s s', Kept s s' → P s → P s') (round : Asset × Faults) :
    Keeps P (migrateAsset contracts orgId round) :=
  fun s hs => h s _ (kept_migrateAsset round s) hs

omit [DecidableEq A] in
theorem kept_reset (s : State A) : Kept s s.reset := ⟨fun _ _ h => h, fun _ _ h => h⟩

/-- No run undoes anything. -/
theorem kept_outcome (run : Run) (s : State A) : Kept s (run.outcome contracts orgId s).2 := by
  refine (kept_settles s run.before).trans ?_
  refine keeps_startMigration (fun u hu => hu.trans (kept_reset u)) (fun round _ => ?_) _ (Kept.refl _)
  exact keeps_of_kept (fun _ _ hkept hu => hu.trans hkept) round

end Runs

/-! ### Resumability -/

section Resume

/-- The ledger before any run. -/
def Ledger.start (ledger : Ledger A) : State A := ⟨ledger, fun _ => none, 0, 0, 0⟩

/-- An asset of the list that has a token, and the text of the token's address. -/
def Listed (contracts : Contracts A) (orgId : String) (assets : List Asset) (asset : Asset)
    (tokenAddress : String) (token : A) : Prop :=
  asset ∈ assets ∧ tokenOf contracts orgId asset = some (tokenAddress, token)

/-- Each asset with a token is associated with it, and the operator has its roles on it unless the
signer may not grant them. -/
def Done (contracts : Contracts A) (orgId : String) (assets : List Asset) (ledger : Ledger A) : Prop :=
  ∀ asset tokenAddress token, Listed contracts orgId assets asset tokenAddress token →
    ledger.associated asset.id = some token ∧ (contracts.admin token = true → ledger.Granted token)

/-- The states that runs over the list leave, ended or stopped anywhere, one after the other. -/
abbrev Reached (contracts : Contracts A) (orgId : String) (assets : List Asset) (ledger : Ledger A) :
    State A → Prop :=
  Machine.Runs (fun s (run : Run) s' => s' = (run.outcome contracts orgId s).2)
    (fun s run => run.Over assets s) ledger.start

/-- A run that ends leaves all done once nothing is in flight, if none of the grants it sent is lost;
after runs that were stopped anywhere, one in which nothing fails ends; and no run undoes anything. -/
structure Resumable (contracts : Contracts A) (orgId : String) (assets : List Asset) (ledger : Ledger A) :
    Prop where
  done : ∀ s s' (run : Run) (after : List Fate), Reached contracts orgId assets ledger s → run.Over assets s →
    run.outcome contracts orgId s = (.ok (), s') → run.Spares s.sent → Spares s.sent after →
    (∀ n, (s'.settles after).inFlight n = none) → Done contracts orgId assets (s'.settles after).toLedger
  completes : ∀ s (run : Run), Reached contracts orgId assets ledger s → run.Over assets s → run.Undisturbed →
    ∃ s', run.outcome contracts orgId s = (.ok (), s')
  kept : ∀ s (run : Run), Kept s (run.outcome contracts orgId s).2

/-- One asset has one token, none is associated with another token, and on each token the operator
has its roles, or some asset has the token's address in its checksummed form exactly if the signer may
grant them. -/
structure Clear (contracts : Contracts A) (orgId : String) (assets : List Asset) (ledger : Ledger A) :
    Prop where
  oneToken : ∀ asset other tokenAddress otherAddress token otherToken,
    Listed contracts orgId assets asset tokenAddress token →
    Listed contracts orgId assets other otherAddress otherToken → asset.id = other.id → token = otherToken
  unclaimed : ∀ asset tokenAddress token, Listed contracts orgId assets asset tokenAddress token →
    ∀ known, ledger.associated asset.id = some known → known = token
  granted : ∀ asset tokenAddress token, Listed contracts orgId assets asset tokenAddress token →
    ledger.Granted token ∨ (contracts.admin token = true ↔
      ∃ other, Listed contracts orgId assets other (contracts.checksum token) token)

variable {contracts : Contracts A} {orgId : String} {assets rows : List Asset} {asset : Asset}
  {s s' : State A} {ledger : Ledger A} {rounds : List (Asset × Faults)} {fates : Call → List Fate} {n : ℕ}

/-- A clear ledger, with no association in flight but of listed assets with their tokens. -/
structure Steady (contracts : Contracts A) (orgId : String) (assets : List Asset) (s : State A) : Prop where
  clear : Clear contracts orgId assets s.toLedger
  listed : ∀ k assetId token, s.inFlight k = some (.associate assetId token) →
    ∃ asset tokenAddress, Listed contracts orgId assets asset tokenAddress token ∧ asset.id = assetId

omit [DecidableEq A] in
theorem clear_associate {tokenAddress : String} {token : A} (h : Clear contracts orgId assets s.toLedger)
    (hlisted : Listed contracts orgId assets asset tokenAddress token) :
    Clear contracts orgId assets (s.associate asset.id token).toLedger := by
  refine ⟨h.oneToken, fun other otherAddress otherToken hother known hknown => ?_, h.granted⟩
  by_cases hid : other.id = asset.id
  · have hassociated : (s.associate asset.id token).associated other.id = some token := by
      rw [hid]
      exact Function.update_self _ _ _
    have heq := Option.some.inj (hassociated.symm.trans hknown)
    rw [← heq]
    exact h.oneToken asset other tokenAddress otherAddress token otherToken hlisted hother hid.symm
  · have hsame : (s.associate asset.id token).associated other.id = s.associated other.id :=
      Function.update_of_ne hid _ _
    exact h.unclaimed other otherAddress otherToken hother known (hsame.symm.trans hknown)

theorem clear_grant {role : Role} {token : A} (h : Clear contracts orgId assets s.toLedger) :
    Clear contracts orgId assets (s.grant role token).toLedger :=
  ⟨h.oneToken, h.unclaimed, fun other otherAddress otherToken hother =>
    (h.granted other otherAddress otherToken hother).imp_left ((kept_grant s role token).granted)⟩

theorem steady_settle (h : Steady contracts orgId assets s) (fate : Fate) :
    Steady contracts orgId assets (s.settle fate) := by
  refine ⟨?_, fun k assetId token hflight => ?_⟩
  · have hlanded : Clear contracts orgId assets (s.landed fate.number).toLedger := h.clear
    rcases settle_cases s fate with hs | ⟨assetId, token, hflight, -, hs⟩ | ⟨role, token, -, hs⟩
    · rw [hs]
      exact hlanded
    · obtain ⟨asset, tokenAddress, hlisted, rfl⟩ := h.listed _ _ _ hflight
      rw [hs]
      exact clear_associate hlanded hlisted
    · rw [hs]
      exact clear_grant hlanded
  · rw [settle_inFlight, Function.update_apply] at hflight
    split_ifs at hflight
    exact h.listed k assetId token hflight

theorem steady_change {round : Asset × Faults} (hasset : round.1 ∈ assets)
    (hchange : Change contracts orgId round s s') (h : Steady contracts orgId assets s) :
    Steady contracts orgId assets s' := by
  cases hchange with
  | count => exact ⟨h.clear, h.listed⟩
  | settle fate => exact steady_settle h fate
  | associate tokenAddress token htoken => exact ⟨clear_associate h.clear ⟨hasset, htoken⟩, h.listed⟩
  | sendAssociation tokenAddress token htoken =>
    refine ⟨h.clear, fun k assetId t hflight => ?_⟩
    unfold State.broadcast at hflight
    dsimp only at hflight
    rw [Function.update_apply] at hflight
    split_ifs at hflight
    · cases hflight
      exact ⟨round.1, tokenAddress, ⟨hasset, htoken⟩, rfl⟩
    · exact h.listed k assetId t hflight
  | sendGrant =>
    refine ⟨h.clear, fun k assetId t hflight => ?_⟩
    unfold State.broadcast at hflight
    dsimp only at hflight
    rw [Function.update_apply] at hflight
    split_ifs at hflight
    · cases hflight
    · exact h.listed k assetId t hflight

theorem steady_reached (h : Reached contracts orgId assets ledger s) (hclear : Clear contracts orgId assets ledger) :
    Steady contracts orgId assets s := by
  refine h.invariant ⟨hclear, fun k _ _ hflight => by cases hflight⟩ fun u run u' hu hover hstep => ?_
  subst hstep
  refine keeps_startMigration (fun v hv => ⟨hv.clear, hv.listed⟩) (fun round hround => ?_) _
    (settles_keeps (fun fate _ _ hv => steady_settle hv fate) hu)
  have hmem : round.1 ∈ assets := hover.listed ▸ List.mem_map_of_mem hround
  exact keeps_migrateAsset fun _ _ => steady_change hmem

/-- What the round of an asset achieves from a steady state, of rounds that lose no grant. -/
def Settled (contracts : Contracts A) (orgId : String) (rounds : List (Asset × Faults)) (n : ℕ) (asset : Asset)
    (s : State A) : Prop :=
  ∀ tokenAddress token, tokenOf contracts orgId asset = some (tokenAddress, token) →
    s.associated asset.id = some token ∧
      ((∀ round ∈ rounds, round.2.Spares n) → contracts.admin token = true →
        tokenAddress = contracts.checksum token → ∀ role, s.Promised n role token)

theorem keeps_settled {round : Asset × Faults} (hround : round ∈ rounds) :
    Keeps (Settled contracts orgId rounds n asset) (migrateAsset contracts orgId round) := by
  refine keeps_migrateAsset fun u v hchange hu tokenAddress token htoken => ?_
  obtain ⟨hassociated, hpromised⟩ := hu tokenAddress token htoken
  refine ⟨(kept_change hchange).associated _ _ hassociated, fun hspares hadmin hspelled role => ?_⟩
  exact promised_change (hspares round hround) hchange (hpromised hspares hadmin hspelled role)

/-- From a steady state an undisturbed round goes on and settles its asset. -/
theorem round_settles (hsteady : Steady contracts orgId assets s) (hgrants : s.GrantsOnly) (hn : n ≤ s.sent)
    (hround : (asset, .none fates) ∈ rounds) (hasset : asset ∈ assets) :
    ∃ s', exec (migrateAsset contracts orgId (asset, .none fates)) s = (.ok (), s') ∧
      Settled contracts orgId rounds n asset s' := by
  cases htoken : tokenOf contracts orgId asset with
  | none => exact ⟨s, migrateAsset_none htoken, fun _ _ h => absurd (htoken.symm.trans h) (by simp)⟩
  | some found =>
    obtain ⟨tokenAddress, token⟩ := found
    have hsettled : ∀ u : State A, u.associated asset.id = some token →
        ((Faults.none fates).Spares n → contracts.admin token = true →
          tokenAddress = contracts.checksum token → ∀ role, u.Promised n role token) →
        Settled contracts orgId rounds n asset u := by
      intro u hassociated hpromised address t ht
      cases htoken.symm.trans ht
      exact ⟨hassociated, fun hspares => hpromised (hspares _ hround)⟩
    obtain ⟨hgrants', hsame⟩ := grantsOnly_settles hgrants (fates .getAssetAddress)
    cases hknown : s.associated asset.id with
    | none =>
      have helsewhere : Elsewhere contracts s asset.id tokenAddress :=
        fun known hk => absurd (hknown.symm.trans hk) (by simp)
      obtain ⟨u, hexec, hassociated, hpromised⟩ := migrate_unknown htoken fates hgrants'
        ((congrFun hsame asset.id).trans hknown)
      refine ⟨u, (migrateAsset_elsewhere htoken rfl hgrants helsewhere).trans hexec, hsettled u hassociated ?_⟩
      intro hspares hadmin _
      exact hpromised hadmin n (hn.trans_eq (settles_sent s _).symm) hspares
    | some known =>
      obtain rfl := hsteady.clear.unclaimed asset tokenAddress token ⟨hasset, htoken⟩ known hknown
      by_cases hspelled : tokenAddress = contracts.checksum known
      · subst hspelled
        rcases migrateAsset_cases htoken fates hgrants hknown with ⟨u, hexec, hpromised⟩ | ⟨hadmin, hlacks, -⟩
        · have hkept : Kept s (exec (migrateAsset contracts orgId (asset, .none fates)) s).2 :=
            kept_migrateAsset _ s
          rw [hexec] at hkept
          exact ⟨u, hexec, hsettled u (hkept.associated _ _ hknown) fun hspares _ _ => hpromised n hn hspares⟩
        · have hiff := (hsteady.clear.granted asset _ known ⟨hasset, htoken⟩).resolve_left hlacks
          exact absurd (hiff.mpr ⟨asset, hasset, htoken⟩) (by simp [hadmin])
      · have helsewhere : Elsewhere contracts s asset.id tokenAddress := by
          intro t ht
          cases hknown.symm.trans ht
          exact Ne.symm hspelled
        have hlooked : (s.looked (.none fates)).associated asset.id = some known :=
          (congrFun hsame asset.id).trans hknown
        have hexec := (migrateAsset_elsewhere htoken rfl hgrants helsewhere).trans
          (migrate_known rfl hgrants' hlooked)
        have hkept : Kept s (exec (migrateAsset contracts orgId (asset, .none fates)) s).2 :=
          kept_migrateAsset _ s
        rw [hexec] at hkept
        exact ⟨_, hexec, hsettled _ (hkept.associated _ _ hknown) fun _ _ h => absurd h hspelled⟩

/-- From a steady state the rounds of a run in which nothing fails end, with each asset settled. -/
theorem loop_settles (hsteady : Steady contracts orgId assets s) (hgrants : s.GrantsOnly) (hn : n ≤ s.sent)
    (hassets : ∀ round ∈ rounds, round.1 ∈ assets) (hcalm : ∀ round ∈ rounds, ∃ fates, round.2 = .none fates) :
    ∃ s', exec (forM rounds (migrateAsset contracts orgId)) s = (.ok (), s') ∧ Kept s s' ∧
      ∀ round ∈ rounds, Settled contracts orgId rounds n round.1 s' := by
  have hround : ∀ round ∈ rounds, ∀ v,
      Steady contracts orgId assets v ∧ v.GrantsOnly ∧ n ≤ v.sent ∧ Kept s v →
      ∃ w, exec (migrateAsset contracts orgId round) v = (.ok ⟨⟩, w) ∧
        (Steady contracts orgId assets w ∧ w.GrantsOnly ∧ n ≤ w.sent ∧ Kept s w) ∧
        Settled contracts orgId rounds n round.1 w := by
    rintro ⟨asset, faults⟩ hmem v ⟨hv, hgrants, hn, hkept⟩
    obtain ⟨fates, rfl⟩ : ∃ fates, faults = .none fates := hcalm _ hmem
    obtain ⟨w, hexec, hsettles⟩ := round_settles hv hgrants hn hmem (hassets _ hmem)
    have hkeeps : Keeps (fun u => Steady contracts orgId assets u ∧ u.GrantsOnly ∧ n ≤ u.sent ∧ Kept s u)
        (migrateAsset contracts orgId (asset, .none fates)) :=
      keeps_migrateAsset fun _ _ hchange hu => ⟨steady_change (hassets _ hmem) hchange hu.1,
        grantsOnly_change rfl hchange hu.2.1, sent_change hchange hu.2.2.1, hu.2.2.2.trans (kept_change hchange)⟩
    have hw := hkeeps v ⟨hv, hgrants, hn, hkept⟩
    rw [hexec] at hw
    exact ⟨w, hexec, hw, hsettles⟩
  obtain ⟨u, hexec, ⟨-, -, -, hkept⟩, hsettled⟩ := forM_achieves hround
    (fun _ _ _ hround => keeps_settled hround) ⟨hsteady, hgrants, hn, Kept.refl s⟩
  exact ⟨u, hexec, hkept, hsettled⟩

omit [DecidableEq A] in
theorem mem_assets {run : Run} (hover : run.rounds.map Prod.fst = assets) :
    ∀ round ∈ run.rounds, round.1 ∈ assets :=
  fun _ hround => hover ▸ List.mem_map_of_mem hround

theorem steady_before (hreached : Reached contracts orgId assets ledger s)
    (hclear : Clear contracts orgId assets ledger) (before : List Fate) :
    Steady contracts orgId assets (s.settles before).reset := by
  have hsteady : Steady contracts orgId assets (s.settles before) :=
    settles_keeps (fun fate _ _ hv => steady_settle hv fate) (steady_reached hreached hclear)
  exact ⟨hsteady.clear, hsteady.listed⟩

omit [DecidableEq A] in
/-- What is promised is held once nothing is in flight. -/
theorem holds_of_promised {role : Role} {token : A} (h : s.Promised n role token)
    (hidle : ∀ k, s.inFlight k = none) : s.holds role token = true := by
  rcases h with hheld | ⟨k, -, -, hflight⟩
  · exact hheld
  · rw [hidle k] at hflight
    cases hflight

theorem map_calm : (calm rounds).map Prod.fst = rounds.map Prod.fst := by
  unfold calm
  rw [List.map_map]
  rfl

theorem calm_none : ∀ round ∈ calm rounds, ∃ fates, round.2 = .none fates := by
  intro round hround
  obtain ⟨disturbed, -, rfl⟩ := List.mem_map.mp hround
  exact ⟨_, rfl⟩

theorem spares_calm (h : ∀ round ∈ rounds, round.2.Spares n) : ∀ round ∈ calm rounds, round.2.Spares n := by
  intro round hround
  obtain ⟨disturbed, hmem, rfl⟩ := List.mem_map.mp hround
  exact h disturbed hmem

/-- From a clear ledger a run that ends has done all, once the grants it sent are mined. -/
theorem done_of_clear (hclear : Clear contracts orgId assets ledger) {run : Run} {after : List Fate}
    (hreached : Reached contracts orgId assets ledger s) (hover : run.Over assets s)
    (hends : run.outcome contracts orgId s = (.ok (), s')) (hspares : run.Spares s.sent)
    (hafter : Spares s.sent after) (hidle : ∀ n, (s'.settles after).inFlight n = none) :
    Done contracts orgId assets (s'.settles after).toLedger := by
  rcases loop_of_ends hends with ⟨hnil, -⟩ | ⟨-, hloop⟩
  · have hassets : assets = [] := by rw [← hover.listed, hnil, List.map_nil]
    intro asset _ _ hlisted
    rw [hassets] at hlisted
    exact absurd hlisted.1 List.not_mem_nil
  have hsteady := steady_before hreached hclear run.before
  have hlisted := map_calm.trans hover.listed
  obtain ⟨u, hexec, hkept, hsettled⟩ := loop_settles hsteady hover.answered (settles_sent s _).ge
    (fun round hround => hlisted ▸ List.mem_map_of_mem hround) calm_none
  obtain rfl : u = s' := by
    have hsame := hexec.symm.trans (calm_of_ends hover.foreign hloop)
    cases hsame
    rfl
  have hsettled' : ∀ asset ∈ assets, Settled contracts orgId (calm run.rounds) s.sent asset u := by
    intro asset hasset
    obtain ⟨round, hround, rfl⟩ := List.mem_map.mp (hlisted ▸ hasset)
    exact hsettled round hround
  have hafters := kept_settles u after
  intro asset tokenAddress token hasset
  refine ⟨hafters.associated _ _ (hsettled' asset hasset.1 tokenAddress token hasset.2).1, fun hadmin => ?_⟩
  rcases hsteady.clear.granted asset tokenAddress token hasset with hgranted | hiff
  · exact (hkept.trans hafters).granted hgranted
  · obtain ⟨other, hother⟩ := hiff.mp hadmin
    intro role
    have hpromised := (hsettled' other hother.1 _ token hother.2).2 (spares_calm hspares) hadmin rfl role
    exact holds_of_promised (promised_settles hafter hpromised) hidle

/-- From a clear ledger a run in which nothing fails ends. -/
theorem ends_of_clear (hclear : Clear contracts orgId assets ledger) {run : Run}
    (hreached : Reached contracts orgId assets ledger s) (hover : run.Over assets s) (hrun : run.Undisturbed) :
    ∃ s', run.outcome contracts orgId s = (.ok (), s') := by
  rcases eq_or_ne run.rounds [] with hnil | hne
  · refine ⟨s.settles run.before, ?_⟩
    unfold Run.outcome startMigration
    rw [hnil, hrun.1.1]
    rfl
  · obtain ⟨u, hexec, -⟩ := loop_settles (steady_before hreached hclear run.before) hover.answered le_rfl
      (mem_assets hover.listed) hrun.2
    exact ⟨u, (exec_of_passes hrun.1 hne).trans hexec⟩

/-- A clear ledger is resumable. -/
theorem resumable_of_clear (h : Clear contracts orgId assets ledger) :
    Resumable contracts orgId assets ledger where
  done _ _ _ _ hreached hover hends hspares hafter hidle :=
    done_of_clear h hreached hover hends hspares hafter hidle
  completes _ _ hreached hover hrun := ends_of_clear h hreached hover hrun
  kept s run := kept_outcome run s

/-! ### Quiet runs -/

/-- Between the calls nothing happens. -/
def quiet : Faults := .none fun _ => []

def undisturbed (assets : List Asset) : List (Asset × Faults) := assets.map fun asset => (asset, quiet)

/-- The start-up at a contract without a registry. -/
def direct : Startup := ⟨none, none, false, none, none⟩

theorem direct_passes : direct.Passes := ⟨rfl, rfl, nofun⟩

def quietRun (before : List Fate) (assets : List Asset) : Run := ⟨before, direct, undisturbed assets⟩

def killed : Thrown := ⟨"SIGKILL", none⟩

theorem killed_foreign : Foreign killed :=
  ⟨includes_of_letter 'A' (by decide) (by decide), includes_of_letter 'm' (by decide) (by decide)⟩

theorem quiet_foreign : quiet.Foreign := by
  refine ⟨?_, ?_, fun role => ⟨?_, ?_⟩⟩ <;> rintro _ ⟨⟩

theorem map_undisturbed : (undisturbed assets).map Prod.fst = assets := by
  unfold undisturbed
  rw [List.map_map]
  exact List.map_id _

theorem foreign_undisturbed : ∀ round ∈ undisturbed assets, round.2.Foreign := by
  intro round hround
  obtain ⟨asset, -, rfl⟩ := List.mem_map.mp hround
  exact quiet_foreign

theorem quietRun_over {before : List Fate} (h : (s.settles before).GrantsOnly) :
    (quietRun before assets).Over assets s := ⟨map_undisturbed, foreign_undisturbed, h⟩

theorem quietRun_undisturbed (before : List Fate) (assets : List Asset) : (quietRun before assets).Undisturbed := by
  refine ⟨direct_passes, fun round hround => ?_⟩
  obtain ⟨asset, -, rfl⟩ := List.mem_map.mp hround
  exact ⟨_, rfl⟩

theorem quietRun_spares (before : List Fate) (assets : List Asset) (n : ℕ) :
    (quietRun before assets).Spares n := by
  intro round hround
  obtain ⟨asset, -, rfl⟩ := List.mem_map.mp hround
  intro call k hlost
  cases hlost

/-- Nothing is in flight under a number that is yet to be given. -/
def State.Bounded (s : State A) : Prop := ∀ k, s.sent ≤ k → s.inFlight k = none

/-- All that is in flight is mined. -/
def State.allMined (s : State A) : List Fate := (List.range s.sent).map .mined

omit [DecidableEq A] in
theorem spares_allMined (s : State A) (n : ℕ) : Spares n s.allMined := by
  intro k hlost
  obtain ⟨m, -, h⟩ := List.mem_map.mp hlost
  cases h

theorem settles_inFlight (s : State A) (fates : List Fate) (k : ℕ) :
    (s.settles fates).inFlight k = if k ∈ fates.map Fate.number then none else s.inFlight k := by
  induction fates generalizing s with
  | nil => rfl
  | cons fate fates ih =>
    rw [settles_cons, ih, settle_inFlight, Function.update_apply, List.map_cons]
    by_cases hfate : k = fate.number
    · simp [hfate]
    · simp [hfate]

theorem idle_allMined (h : s.Bounded) (k : ℕ) : (s.settles s.allMined).inFlight k = none := by
  rw [settles_inFlight]
  split_ifs with hmem
  · rfl
  · refine h k (Nat.le_of_not_lt fun hlt => hmem ?_)
    exact List.mem_map.mpr ⟨.mined k, List.mem_map_of_mem (List.mem_range.mpr hlt), rfl⟩

omit [DecidableEq A] in
theorem grantsOnly_of_idle (h : ∀ k, s.inFlight k = none) : s.GrantsOnly := by
  intro k assetId token hflight
  rw [h k] at hflight
  cases hflight

theorem bounded_settle (h : s.Bounded) (fate : Fate) : (s.settle fate).Bounded := by
  intro k hk
  rw [settle_inFlight, Function.update_apply]
  split_ifs
  · rfl
  · exact h k (by rwa [settle_sent] at hk)

theorem bounded_change {round : Asset × Faults} (hchange : Change contracts orgId round s s') (h : s.Bounded) :
    s'.Bounded := by
  have hbroadcast : ∀ transaction, (s.broadcast transaction).Bounded := by
    intro transaction k hk
    have hlt : s.sent < k := hk
    exact (Function.update_of_ne (Nat.ne_of_gt hlt) _ _).trans (h k hlt.le)
  cases hchange with
  | count => exact h
  | settle fate => exact bounded_settle h fate
  | associate => exact h
  | sendAssociation => exact hbroadcast _
  | sendGrant => exact hbroadcast _

theorem bounded_outcome (h : s.Bounded) (run : Run) : (run.outcome contracts orgId s).2.Bounded :=
  keeps_startMigration (fun _ hu => hu) (fun _ _ => keeps_migrateAsset fun _ _ => bounded_change) _
    (settles_keeps (fun fate _ _ hv => bounded_settle hv fate) h)

theorem bounded_reached (h : Reached contracts orgId assets ledger s) : s.Bounded := by
  refine h.invariant (fun _ _ => rfl) fun u run u' hu _ hstep => ?_
  subst hstep
  exact bounded_outcome hu run

/-- From a reached state a quiet run ends and leaves all done once all is mined. -/
theorem quietRun_done (h : Resumable contracts orgId assets ledger)
    (hreached : Reached contracts orgId assets ledger s) (before : List Fate) (hbefore : (s.settles before).GrantsOnly) :
    ∃ t, (quietRun before assets).outcome contracts orgId s = (.ok (), t) ∧ t.Bounded ∧
      Done contracts orgId assets (t.settles t.allMined).toLedger := by
  obtain ⟨t, hends⟩ := h.completes s _ hreached (quietRun_over hbefore) (quietRun_undisturbed before assets)
  have hbounded : ((quietRun before assets).outcome contracts orgId s).2.Bounded :=
    bounded_outcome (bounded_reached hreached) _
  rw [hends] at hbounded
  refine ⟨t, hends, hbounded, ?_⟩
  exact h.done s t _ _ hreached (quietRun_over hbefore) hends (quietRun_spares before assets s.sent)
    (spares_allMined t s.sent) (idle_allMined hbounded)

/-- A quiet run that ends has gone through each asset's round, from a state that the rounds before it
kept. -/
theorem round_of_ends {post : List Asset} {before : List Fate} {P : State A → Prop}
    (h : (quietRun before assets).outcome contracts orgId s = (.ok (), s'))
    (hassets : assets = rows ++ asset :: post) (hreset : P (s.settles before).reset)
    (hrows : ∀ row ∈ rows, Keeps P (migrateAsset contracts orgId (row, quiet))) :
    ∃ u w, exec (forM (undisturbed rows) (migrateAsset contracts orgId)) (s.settles before).reset = (.ok (), u) ∧
      P u ∧ exec (migrateAsset contracts orgId (asset, quiet)) u = (.ok (), w) := by
  have hsplit : undisturbed assets = undisturbed rows ++ (asset, quiet) :: undisturbed post := by
    rw [hassets]
    unfold undisturbed
    rw [List.map_append, List.map_cons]
  unfold Run.outcome quietRun at h
  rw [exec_of_passes direct_passes (by simp [hsplit]), hsplit] at h
  obtain ⟨u, w, hloop, hround⟩ := forM_split h
  have hkeeps : Keeps P (forM (undisturbed rows) (migrateAsset contracts orgId)) := by
    refine Keeps.forM fun round hmem => ?_
    obtain ⟨row, hrow, rfl⟩ := List.mem_map.mp hmem
    exact hrows row hrow
  have hu := hkeeps _ hreset
  rw [hloop] at hu
  exact ⟨u, w, hloop, hu, hround⟩

/-! ### What a resumable ledger needs -/

variable {token : A} {tokenAddress : String}

/-- The operator lacks a role on the token, and no grant of one is in flight. -/
structure Lacking (token : A) (s : State A) : Prop where
  lacks : ¬ s.Granted token
  unsent : ∀ k role, s.inFlight k ≠ some (.grant role token)

theorem lacking_grant {role : Role} {t : A} (hne : token ≠ t) (h : ¬ s.Granted token) :
    ¬ (s.grant role t).Granted token := by
  refine fun hgranted => h fun r => ?_
  have hr := hgranted r
  rw [holds_grant, decide_eq_false hne, Bool.and_false, Bool.or_false] at hr
  exact hr

theorem lacking_settle (h : Lacking token s) (fate : Fate) : Lacking token (s.settle fate) := by
  refine ⟨?_, fun k role hflight => ?_⟩
  · have hlanded : ¬ (s.landed fate.number).Granted token := h.lacks
    rcases settle_cases s fate with hs | ⟨_, _, -, -, hs⟩ | ⟨role, t, hflight, hs⟩
    · rw [hs]
      exact hlanded
    · rw [hs]
      exact hlanded
    · have hne : token ≠ t := by
        rintro rfl
        exact h.unsent _ role hflight
      rw [hs]
      exact lacking_grant hne hlanded
  · rw [settle_inFlight, Function.update_apply] at hflight
    split_ifs at hflight
    exact h.unsent k role hflight

theorem lacking_settles (h : Lacking token s) (fates : List Fate) : Lacking token (s.settles fates) :=
  settles_keeps (fun fate _ _ hu => lacking_settle hu fate) h

/-- A round sends a grant of a role on the token only for an asset with the token, of a signer who may. -/
theorem lacking_change {round : Asset × Faults} (hchange : Change contracts orgId round s s')
    (hnot : contracts.admin token = false ∨
      ∀ tokenAddress, tokenOf contracts orgId round.1 ≠ some (tokenAddress, token))
    (h : Lacking token s) : Lacking token s' := by
  have hbroadcast : ∀ transaction, (∀ role, transaction ≠ .grant role token) →
      Lacking token (s.broadcast transaction) := by
    refine fun transaction hother => ⟨h.lacks, fun k role hflight => ?_⟩
    unfold State.broadcast at hflight
    dsimp only at hflight
    rw [Function.update_apply] at hflight
    split_ifs at hflight
    · exact hother role (Option.some.inj hflight)
    · exact h.unsent k role hflight
  cases hchange with
  | count => exact ⟨h.lacks, h.unsent⟩
  | settle fate => exact lacking_settle h fate
  | associate => exact ⟨h.lacks, h.unsent⟩
  | sendAssociation => exact hbroadcast _ fun _ => by simp
  | sendGrant role address t htoken hadmin =>
    refine hbroadcast _ fun r heq => ?_
    cases heq
    rcases hnot with hrefused | hother
    · rw [hadmin] at hrefused
      cases hrefused
    · exact hother address htoken

/-- The operator lacks a role on the token, each listed asset with the token is associated, and no
association is in flight. -/
structure Withheld (contracts : Contracts A) (orgId : String) (token : A) (rows : List Asset) (s : State A) : Prop
    extends Lacking token s where
  associated : ∀ asset ∈ rows, ∀ tokenAddress, tokenOf contracts orgId asset = some (tokenAddress, token) →
    s.associated asset.id ≠ none
  answered : s.GrantsOnly

omit [DecidableEq A] in
theorem addressOf_of_tokenOf (h : tokenOf contracts orgId asset = some (tokenAddress, token)) :
    contracts.addressOf tokenAddress = some token := by
  unfold tokenOf at h
  split_ifs at h
  obtain ⟨ledgerAssetInfo, -, hinfo⟩ := Option.bind_eq_some_iff.mp h
  obtain ⟨t, haddress, heq⟩ := Option.map_eq_some_iff.mp hinfo
  cases heq
  exact haddress

omit [DecidableEq A] in
/-- No asset is known with the text of an address that is not in its checksummed form. -/
theorem elsewhere_of_spelled (h : tokenOf contracts orgId asset = some (tokenAddress, token))
    (hspelled : tokenAddress ≠ contracts.checksum token) : Elsewhere contracts s asset.id tokenAddress := by
  rintro known - rfl
  have haddress := addressOf_of_tokenOf h
  rw [contracts.addressOf_checksum] at haddress
  cases haddress
  exact hspelled rfl

omit [DecidableEq A] in
theorem associated_of_kept (h : Kept s s')
    (hassociated : ∀ asset ∈ rows, ∀ tokenAddress, tokenOf contracts orgId asset = some (tokenAddress, token) →
      s.associated asset.id ≠ none) :
    ∀ asset ∈ rows, ∀ tokenAddress, tokenOf contracts orgId asset = some (tokenAddress, token) →
      s'.associated asset.id ≠ none := by
  intro asset hasset tokenAddress htoken
  obtain ⟨known, hknown⟩ := Option.ne_none_iff_exists'.mp (hassociated asset hasset tokenAddress htoken)
  rw [h.associated _ known hknown]
  exact Option.some_ne_none known

/-- Quiet rounds of assets that are all associated send no grant on a token whose address stands
nowhere in its checksummed form. -/
theorem keeps_withheld
    (hspelled : ∀ asset ∈ rows, tokenOf contracts orgId asset ≠ some (contracts.checksum token, token))
    (hasset : asset ∈ rows) :
    Keeps (Withheld contracts orgId token rows) (migrateAsset contracts orgId (asset, quiet)) := by
  by_cases htoken : ∃ tokenAddress, tokenOf contracts orgId asset = some (tokenAddress, token)
  · obtain ⟨tokenAddress, htoken⟩ := htoken
    have hne : tokenAddress ≠ contracts.checksum token := by
      rintro rfl
      exact hspelled asset hasset htoken
    intro u hu
    obtain ⟨known, hknown⟩ := Option.ne_none_iff_exists'.mp (hu.associated asset hasset tokenAddress htoken)
    have hround : exec (migrateAsset contracts orgId (asset, quiet)) u =
        (.ok (), { u with skipped := u.skipped + 1 }) :=
      (migrateAsset_elsewhere htoken rfl hu.answered (elsewhere_of_spelled htoken hne)).trans
        (migrate_known rfl hu.answered hknown)
    rw [hround]
    exact ⟨⟨hu.lacks, hu.unsent⟩, hu.associated, hu.answered⟩
  · refine keeps_migrateAsset fun u v hchange hu => ⟨?_, ?_, grantsOnly_change rfl hchange hu.answered⟩
    · exact lacking_change hchange (.inr fun tokenAddress hto => htoken ⟨tokenAddress, hto⟩) hu.toLacking
    · exact associated_of_kept (kept_change hchange) hu.associated

/-- The faults of a round that is stopped right after its asset's association, and of one that is
stopped at its first call. -/
def stopped : Faults := { quiet with hasRole := fun _ => some killed }

def stoppedAtOnce : Faults := { quiet with getAssetAddress := some killed }

theorem stopped_foreign : stopped.Foreign := by
  refine ⟨by rintro _ ⟨⟩, by rintro _ ⟨⟩, fun role => ⟨fun e he => ?_, by rintro _ ⟨⟩⟩⟩
  rw [← Option.some.inj he]
  exact killed_foreign

theorem stoppedAtOnce_foreign : stoppedAtOnce.Foreign := by
  refine ⟨fun e he => ?_, by rintro _ ⟨⟩, fun role => ⟨by rintro _ ⟨⟩, by rintro _ ⟨⟩⟩⟩
  rw [← Option.some.inj he]
  exact killed_foreign

theorem stopped_unknown (h : tokenOf contracts orgId asset = some (tokenAddress, token)) (hgrants : s.GrantsOnly)
    (hunknown : s.associated asset.id = none) :
    exec (migrateAsset contracts orgId (asset, stopped)) s = (.error killed, s.associate asset.id token) := by
  have helsewhere : Elsewhere contracts s asset.id tokenAddress :=
    fun known hk => absurd (hunknown.symm.trans hk) (by simp)
  have hassociate : exec (associateAsset contracts asset.id token stopped) s =
      (.ok (), s.associate asset.id token) := associateAsset_unknown contracts token rfl hgrants hunknown
  have hkilled : exec (whitelistERC20 contracts token stopped) (s.associate asset.id token) =
      (.error killed, s.associate asset.id token) := rfl
  refine (migrateAsset_elsewhere h rfl hgrants helsewhere).trans ?_
  refine (exec_catch_error ((exec_bind_ok hassociate).trans (exec_bind_error hkilled))).trans ?_
  rw [caught_foreign killed_foreign, exec_throw]

theorem stopped_known (h : tokenOf contracts orgId asset = some (tokenAddress, token)) :
    exec (migrateAsset contracts orgId (asset, stoppedAtOnce)) s = (.error killed, s) := by
  have hkilled : exec (getAssetAddress contracts asset.id stoppedAtOnce) s = (.error killed, s) := rfl
  unfold migrateAsset
  rw [h]
  refine exec_bind_error ((exec_catch_error (exec_bind_error hkilled)).trans ?_)
  rw [killed_foreign.1, if_neg Bool.false_ne_true, exec_throw]

/-- A round that is stopped in time leaves the asset associated, and sends nothing. -/
theorem stopped_round (h : tokenOf contracts orgId asset = some (tokenAddress, token)) (hgrants : s.GrantsOnly) :
    ∃ faults u, faults.Foreign ∧ exec (migrateAsset contracts orgId (asset, faults)) s = (.error killed, u) ∧
      u.associated asset.id ≠ none ∧ Kept s u ∧ u.holds = s.holds ∧ u.inFlight = s.inFlight := by
  cases hassociated : s.associated asset.id with
  | none =>
    refine ⟨stopped, s.associate asset.id token, stopped_foreign, stopped_unknown h hgrants hassociated, ?_,
      kept_associate token hassociated, rfl, rfl⟩
    have hself : (s.associate asset.id token).associated asset.id = some token := Function.update_self _ _ _
    rw [hself]
    exact Option.some_ne_none token
  | some known =>
    refine ⟨stoppedAtOnce, s, stoppedAtOnce_foreign, stopped_known h, ?_, Kept.refl s, rfl, rfl⟩
    rw [hassociated]
    exact Option.some_ne_none known

omit [DecidableEq A] in
theorem withheld_of_kept {u : State A} (h : Withheld contracts orgId token rows s) (hkept : Kept s u)
    (hholds : u.holds = s.holds) (hflight : u.inFlight = s.inFlight) : Withheld contracts orgId token rows u := by
  refine ⟨⟨fun hgranted => h.lacks fun role => ?_, ?_⟩, associated_of_kept hkept h.associated, ?_⟩
  · rw [← hholds]
    exact hgranted role
  · rw [hflight]
    exact h.unsent
  · unfold State.GrantsOnly
    rw [hflight]
    exact h.answered

omit [DecidableEq A] in
theorem withheld_append (h : Withheld contracts orgId token rows s)
    (hassociated : ∀ tokenAddress, tokenOf contracts orgId asset = some (tokenAddress, token) →
      s.associated asset.id ≠ none) : Withheld contracts orgId token (rows ++ [asset]) s := by
  refine ⟨h.toLacking, fun other hother otherAddress hto => ?_, h.answered⟩
  rcases List.mem_append.mp hother with hmem | hmem
  · exact h.associated other hmem otherAddress hto
  · cases List.mem_singleton.mp hmem
    exact hassociated otherAddress hto

/-- The run whose round of one asset is stopped. -/
def stoppedAt (rows : List Asset) (asset : Asset) (faults : Faults) (post : List Asset) : Run :=
  ⟨[], direct, undisturbed rows ++ (asset, faults) :: undisturbed post⟩

theorem stoppedAt_over {post : List Asset} {faults : Faults} (hassets : assets = rows ++ asset :: post)
    (hfaults : faults.Foreign) (hgrants : s.GrantsOnly) : (stoppedAt rows asset faults post).Over assets s := by
  refine ⟨?_, fun round hround => ?_, hgrants⟩
  · show (undisturbed rows ++ (asset, faults) :: undisturbed post).map Prod.fst = assets
    rw [List.map_append, List.map_cons, map_undisturbed, map_undisturbed, hassets]
  · rcases List.mem_append.mp hround with hmem | hmem
    · exact foreign_undisturbed round hmem
    · rcases List.mem_cons.mp hmem with rfl | hmem
      · exact hfaults
      · exact foreign_undisturbed round hmem

/-- Where a quiet run ends, one that is stopped at an asset leaves it associated too, and the operator
without a role still. -/
theorem stoppedAt_leaves {post : List Asset}
    (hends : (quietRun [] assets).outcome contracts orgId s = (.ok (), s'))
    (hassets : assets = rows ++ asset :: post)
    (hspelled : ∀ asset ∈ assets, tokenOf contracts orgId asset ≠ some (contracts.checksum token, token))
    (htoken : tokenOf contracts orgId asset = some (tokenAddress, token))
    (hs : Withheld contracts orgId token rows s) :
    ∃ faults, faults.Foreign ∧ Withheld contracts orgId token (rows ++ [asset])
      ((stoppedAt rows asset faults post).outcome contracts orgId s).2 := by
  have hreset : Withheld contracts orgId token rows s.reset := ⟨⟨hs.lacks, hs.unsent⟩, hs.associated, hs.answered⟩
  obtain ⟨u, -, hbefore, hu, -⟩ := round_of_ends hends hassets hreset fun row hrow =>
    keeps_withheld (fun other hother => hspelled other (hassets ▸ List.mem_append_left _ hother)) hrow
  obtain ⟨faults, v, hfaults, hround, hassociated, hkept, hholds, hflight⟩ := stopped_round htoken hu.answered
  have hrun : (stoppedAt rows asset faults post).outcome contracts orgId s = (.error killed, v) := by
    unfold Run.outcome stoppedAt
    rw [exec_of_passes direct_passes (List.append_ne_nil_of_right_ne_nil _ (List.cons_ne_nil _ _)),
      List.forM_append, exec_bind_ok hbefore, List.forM_cons, exec_bind_error hround]
  refine ⟨faults, hfaults, ?_⟩
  rw [hrun]
  exact withheld_append (withheld_of_kept hu hkept hholds hflight) fun _ _ => hassociated

/-- Runs that are each stopped right after an association get every asset with the token associated
and no role granted. The induction is on the assets that are done with. -/
theorem reaches_withheld (h : Resumable contracts orgId assets ledger) (hlacks : ¬ ledger.Granted token)
    (hspelled : ∀ asset ∈ assets, tokenOf contracts orgId asset ≠ some (contracts.checksum token, token))
    (rows : List Asset) : ∀ post, assets = rows ++ post →
      ∃ s, Reached contracts orgId assets ledger s ∧ Withheld contracts orgId token rows s := by
  induction rows using List.reverseRecOn with
  | nil =>
    refine fun _ _ => ⟨ledger.start, .start, ⟨hlacks, fun k role hflight => ?_⟩, ?_, fun k id t hflight => ?_⟩
    · cases hflight
    · exact fun asset hasset => absurd hasset List.not_mem_nil
    · cases hflight
  | append_singleton rows asset ih =>
    intro post hassets
    rw [List.append_assoc, List.singleton_append] at hassets
    obtain ⟨s, hreached, hs⟩ := ih (asset :: post) hassets
    by_cases htoken : ∃ tokenAddress, tokenOf contracts orgId asset = some (tokenAddress, token)
    · obtain ⟨tokenAddress, htoken⟩ := htoken
      obtain ⟨t, hends, -⟩ := quietRun_done h hreached [] hs.answered
      obtain ⟨faults, hfaults, hleft⟩ := stoppedAt_leaves hends hassets hspelled htoken hs
      exact ⟨_, hreached.tail (stoppedAt_over hassets hfaults hs.answered) rfl, hleft⟩
    · exact ⟨s, hreached, withheld_append hs fun tokenAddress hto => absurd ⟨tokenAddress, hto⟩ htoken⟩

/-- Roles that the signer may grant are granted late only if some asset brings the checksummed address. -/
theorem spelled_of_admin (h : Resumable contracts orgId assets ledger)
    (hasset : Listed contracts orgId assets asset tokenAddress token) (hlacks : ¬ ledger.Granted token)
    (hadmin : contracts.admin token = true) :
    ∃ other, Listed contracts orgId assets other (contracts.checksum token) token := by
  by_contra hnone
  have hspelled : ∀ asset ∈ assets, tokenOf contracts orgId asset ≠ some (contracts.checksum token, token) :=
    fun other hother htoken => hnone ⟨other, hother, htoken⟩
  obtain ⟨s, hreached, hs⟩ := reaches_withheld h hlacks hspelled assets [] (List.append_nil _).symm
  obtain ⟨t, hends, -, hdone⟩ := quietRun_done h hreached [] hs.answered
  have hkeeps : Withheld contracts orgId token assets ((quietRun [] assets).outcome contracts orgId s).2 := by
    refine keeps_startMigration (fun u hu => ⟨⟨hu.lacks, hu.unsent⟩, hu.associated, hu.answered⟩)
      (fun round hround => ?_) _ hs
    obtain ⟨row, hrow, rfl⟩ := List.mem_map.mp hround
    exact keeps_withheld hspelled hrow
  rw [hends] at hkeeps
  exact (lacking_settles hkeeps.toLacking t.allMined).lacks ((hdone asset tokenAddress token hasset).2 hadmin)

/-- A signer who may not grant the roles is stopped, in the second run, at an asset that brings the
checksummed address. -/
theorem admin_of_spelled (h : Resumable contracts orgId assets ledger)
    (hasset : Listed contracts orgId assets asset (contracts.checksum token) token)
    (hlacks : ¬ ledger.Granted token) : contracts.admin token = true := by
  by_contra hadmin
  have hrefuses := Bool.eq_false_iff.mpr hadmin
  have hkeeps : ∀ round, Keeps (Lacking token) (migrateAsset contracts orgId round) :=
    fun _ => keeps_migrateAsset fun _ _ hchange => lacking_change hchange (.inl hrefuses)
  have hstart : Lacking token ledger.start := ⟨hlacks, fun k role hflight => by cases hflight⟩
  obtain ⟨s, hends, hbounded, hdone⟩ := quietRun_done h .start []
    (grantsOnly_of_idle fun _ => rfl)
  have hs : Lacking token ((quietRun [] assets).outcome contracts orgId ledger.start).2 :=
    keeps_startMigration (fun _ hu => ⟨hu.lacks, hu.unsent⟩) (fun round _ => hkeeps round) _ hstart
  have hreached : Reached contracts orgId assets ledger s :=
    Machine.Runs.single (a := quietRun [] assets) (quietRun_over (grantsOnly_of_idle fun _ => rfl)) (by rw [hends])
  rw [hends] at hs
  have hgrants := grantsOnly_of_idle (idle_allMined hbounded)
  obtain ⟨t, hends', -⟩ := quietRun_done h hreached _ hgrants
  obtain ⟨rows, post, hassets⟩ := List.append_of_mem hasset.1
  obtain ⟨u, w, -, ⟨hkept, hu, hgrants'⟩, hround⟩ := round_of_ends
    (P := fun u => Kept (s.settles s.allMined) u ∧ Lacking token u ∧ u.GrantsOnly) hends' hassets
    ⟨kept_reset _, ⟨(lacking_settles hs _).lacks, (lacking_settles hs _).unsent⟩, hgrants⟩
    fun row _ => keeps_migrateAsset fun _ _ hchange hv => ⟨hv.1.trans (kept_change hchange),
      lacking_change hchange (.inl hrefuses) hv.2.1, grantsOnly_change rfl hchange hv.2.2⟩
  have hknown := hkept.associated _ _ (hdone asset _ token hasset).1
  have hw := hkeeps (asset, quiet) u hu
  rw [hround] at hw
  rcases migrateAsset_cases hasset.2 (fun _ => []) hgrants' hknown with ⟨v, hexec, hpromised⟩ | ⟨-, -, v, hexec⟩
  · obtain rfl : w = v := congrArg Prod.snd (hround.symm.trans hexec)
    refine hw.lacks fun role => ?_
    have hspares : (Faults.none fun _ => []).Spares 0 := by rintro _ _ ⟨⟩
    rcases hpromised 0 (Nat.zero_le _) hspares role with hheld | ⟨k, -, -, hflight⟩
    · exact hheld
    · exact absurd hflight (hw.unsent k role)
  · cases hround.symm.trans hexec

/-- A resumable ledger is clear. -/
theorem clear_of_resumable (h : Resumable contracts orgId assets ledger) : Clear contracts orgId assets ledger := by
  obtain ⟨s, hends, -, hdone⟩ := quietRun_done h .start [] (grantsOnly_of_idle fun _ => rfl)
  have hkept : Kept ledger.start (s.settles s.allMined) := by
    have hrun : Kept ledger.start ((quietRun [] assets).outcome contracts orgId ledger.start).2 :=
      kept_outcome _ _
    rw [hends] at hrun
    exact hrun.trans (kept_settles s _)
  refine ⟨fun asset other tokenAddress otherAddress token otherToken hasset hother hid => ?_,
    fun asset tokenAddress token hasset known hknown => ?_, fun asset tokenAddress token hasset => ?_⟩
  · have hfirst := (hdone asset tokenAddress token hasset).1
    rw [hid, (hdone other otherAddress otherToken hother).1] at hfirst
    exact (Option.some.inj hfirst).symm
  · have hstill := hkept.associated _ _ hknown
    rw [(hdone asset tokenAddress token hasset).1] at hstill
    exact (Option.some.inj hstill).symm
  · refine or_iff_not_imp_left.mpr fun hlacks => ⟨spelled_of_admin h hasset hlacks, ?_⟩
    rintro ⟨other, hother⟩
    exact admin_of_spelled h hother hlacks

/-- For all listed assets, contracts and ledgers of them: after runs that were each stopped anywhere, a
run that ends has done all once the grants it sent are mined, a run in which nothing fails ends, and
none undoes anything, exactly if one asset has one token, no asset is associated with another token,
and on each token the operator has its roles, or some asset brings the token's address in its
checksummed form exactly if the signer may grant them. -/
theorem resumable_iff (contracts : Contracts A) (orgId : String) (assets : List Asset) (ledger : Ledger A) :
    Resumable contracts orgId assets ledger ↔ Clear contracts orgId assets ledger :=
  ⟨clear_of_resumable, resumable_of_clear⟩

end Resume

/-! ### One asset -/

/-- One token's address in its checksummed form, and in lower case. -/
def checksummed : String := "0x5aAeb6053F3E94C9b9A09f33669435E7Ef1BeAed"

def lowerCase : String := "0x5aaeb6053f3e94c9b9a09f33669435e7ef1beaed"

/-- Contracts with this one token, on which the signer is an admin. -/
def coin : Contracts Unit where
  addressOf s := if s = checksummed ∨ s = lowerCase then some () else none
  checksum _ := checksummed
  addressOf_checksum _ := if_pos (.inl rfl)
  admin _ := true
  notFound _ := ⟨"Asset not found", none⟩
  notFound_text _ := includes_self _
  alreadyExists _ := ⟨"Asset already exists", some "Asset already exists"⟩
  alreadyExists_text _ := includes_of_letter 'f' (by decide) (by decide)
  alreadyExists_reason _ := ⟨_, rfl, includes_self _⟩
  notAdmin _ := ⟨"must have admin role to grant", none⟩
  notAdmin_text _ := ⟨includes_self _, includes_of_letter 'f' (by decide) (by decide)⟩
  notAdmin_reason _ := rfl

/-- A contract that knows no asset and a token on which the operator has no role. -/
def unmigrated : Ledger Unit := ⟨fun _ => none, fun _ _ => false⟩

def asset (tokenId : String) : Asset := ⟨"org", "asset-1", some ⟨none, some tokenId⟩⟩

theorem tokenOf_asset {tokenId : String} (h : tokenId = checksummed ∨ tokenId = lowerCase) :
    tokenOf coin "org" (asset tokenId) = some (tokenId, ()) := by
  have haddress : coin.addressOf tokenId = some () := if_pos h
  have horganization : (asset tokenId).organizationId = "org" := rfl
  unfold tokenOf
  rw [if_pos horganization]
  show (coin.addressOf tokenId).map _ = _
  rw [haddress]
  rfl

/-- The address is listed in lower case. A run that is stopped between the association and the grants
is followed by one that skips the asset, and ends without the grants. -/
theorem lowerCase_not_resumed : ¬ Resumable coin "org" [asset lowerCase] unmigrated := by
  intro h
  have hlisted : Listed coin "org" [asset lowerCase] (asset lowerCase) lowerCase () :=
    ⟨List.mem_cons_self, tokenOf_asset (.inr rfl)⟩
  rcases (clear_of_resumable h).granted _ _ _ hlisted with hgranted | hiff
  · exact absurd (hgranted .operator) Bool.false_ne_true
  · obtain ⟨other, hother, htoken⟩ := hiff.mp rfl
    rw [List.mem_singleton.mp hother, tokenOf_asset (.inr rfl)] at htoken
    have hspelled : lowerCase = checksummed := congrArg Prod.fst (Option.some.inj htoken)
    exact absurd hspelled (by decide)

theorem checksummed_clear : Clear coin "org" [asset checksummed] unmigrated := by
  refine ⟨fun _ _ _ _ _ _ _ _ _ => rfl, ?_, fun _ _ _ _ => .inr ⟨fun _ => ?_, fun _ => rfl⟩⟩
  · rintro _ _ _ _ _ ⟨⟩
  exact ⟨asset checksummed, List.mem_cons_self, tokenOf_asset (.inl rfl)⟩

/-- With the address in its checksummed form the work is taken up wherever it was stopped. -/
theorem checksummed_resumed : Resumable coin "org" [asset checksummed] unmigrated :=
  (resumable_iff coin "org" [asset checksummed] unmigrated).mpr checksummed_clear

/-- A run does not wait for its grants. Where they are lost once it has ended, the operator lacks its
roles, however the address is spelled. -/
theorem checksummed_lost : ∃ s',
    (quietRun [] [asset checksummed]).outcome coin "org" unmigrated.start = (.ok (), s') ∧
    ¬ Done coin "org" [asset checksummed] (s'.settles [.lost 0, .lost 1]).toLedger := by
  obtain ⟨s', hends⟩ := ends_of_clear checksummed_clear .start (quietRun_over (grantsOnly_of_idle fun _ => rfl))
    (quietRun_undisturbed [] _)
  refine ⟨s', hends, fun hdone => ?_⟩
  have hlisted : Listed coin "org" [asset checksummed] (asset checksummed) checksummed () :=
    ⟨List.mem_cons_self, tokenOf_asset (.inl rfl)⟩
  have hheld := (hdone _ _ _ hlisted).2 rfl .operator
  obtain rfl : ((quietRun [] [asset checksummed]).outcome coin "org" unmigrated.start).2 = s' :=
    congrArg Prod.snd hends
  exact absurd hheld (by decide +kernel)

end FinP2PAdapter.Scripts.Migration
