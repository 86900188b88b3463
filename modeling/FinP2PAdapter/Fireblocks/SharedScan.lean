import FinP2PAdapter.Fireblocks.Vaults

/-! What the shared scan does for the calls that await it: each of its steps finds what it
owes or still owes it, so a scan that has settled has found all that it was bound to come
upon when a call joined it. -/

namespace FinP2PAdapter.Fireblocks

open Machine

/-! ### Scans go on -/

namespace Scan

/-- What a scan was answered with is true. -/
def Real (deposits : List Deposit) : Scan → Prop
  | .listing began => ∀ d ∈ began, d ∈ deposits
  | .fetching asked _ _ => ∀ d ∈ asked, d ∈ deposits
  | .describing wallet addresses _ => ∀ address ∈ addresses, (⟨wallet, address⟩ : Deposit) ∈ deposits
  | _ => True

theorem Real.mono {deposits deposits' : List Deposit} {scan : Scan} (h : scan.Real deposits)
    (hsub : ∀ d ∈ deposits, d ∈ deposits') : scan.Real deposits' := by
  cases scan with
  | listing began => exact fun d hd => hsub d (h d hd)
  | fetching asked wallet todo => exact fun d hd => hsub d (h d hd)
  | describing wallet addresses todo => exact fun a ha => hsub _ (h a ha)
  | collected => trivial
  | broken => trivial
  | settled succeeded => trivial

theorem real_visit (deposits : List Deposit) (todo : List Wallet) :
    (visit deposits todo).Real deposits := by
  cases todo with
  | nil => trivial
  | cons wallet todo => exact fun _ hd => hd

theorem reaches_visit {deposits : List Deposit} {d : Deposit} (hd : d ∈ deposits) {todo : List Wallet}
    (h : d.wallet ∈ todo) : (visit deposits todo).Reaches d := by
  cases todo with
  | nil => cases h
  | cons wallet todo => exact (List.mem_cons.mp h).imp (fun he => ⟨he, hd⟩) id

theorem isSettled_visit (deposits : List Deposit) (todo : List Wallet) :
    (visit deposits todo).isSettled = false := by
  cases todo <;> rfl

end Scan

/-- What a step may do to what calls rely on: scans that owe a deposit find it or still owe it. -/
structure Advances (s s' : VaultState) : Prop where
  deposits : ∀ d ∈ s.fireblocks.deposits, d ∈ s'.fireblocks.deposits
  known : ∀ address, s.Known address → s'.Known address
  scans : ∀ (k : ℕ) (scan : Scan), s.scans[k]? = some scan → ∃ scan' : Scan, s'.scans[k]? = some scan' ∧
    (scan.isSettled = true → scan' = scan) ∧
    ∀ d ∈ s.fireblocks.deposits, scan.Reaches d → s'.Known d.address ∨ scan'.Reaches d

/-- What holds of the caches and scans: the cache tells the truth, and at most one scan
runs, the one that calls join. -/
structure Kept (s : VaultState) : Prop where
  cached : ∀ key detail, s.caches.addressLeafCache.get? key = some detail →
    ∃ d ∈ s.fireblocks.deposits, d.wallet.vaultId = detail.vaultId ∧ d.address.toLower = key
  real : ∀ (k : ℕ) (scan : Scan), s.scans[k]? = some scan → scan.Real s.fireblocks.deposits
  active : ∀ (k : ℕ) (scan : Scan), s.scans[k]? = some scan → scan.isSettled = false →
    s.activeScan = some k
  inFlight : ∀ k, s.activeScan = some k → ∃ scan : Scan, s.scans[k]? = some scan ∧
    scan.isSettled = false

/-- What a call may rely on. -/
def StageSound (s : VaultState) (c : Lookup) : LookupStage → Prop
  | .ensuring none => True
  | .ensuring (some k) => ∃ scan, s.scans[k]? = some scan
  | .rescanning k => ∃ scan : Scan, s.scans[k]? = some scan ∧
    ∀ address, c.request = .getVaultIdForAddress address →
      ∀ d ∈ c.existed, SameUpToCase d.address address → s.Known d.address ∨ scan.Reaches d
  | .fetchingBalance _ | .threw none => ∀ address, c.request ≠ .getVaultIdForAddress address
  | .returned value => ∀ address, c.request = .getVaultIdForAddress address →
    ∀ d ∈ c.existed, SameUpToCase d.address address → value = some d.wallet.vaultId
  | .threw (some k) => s.scans[k]? = some (.settled false)

structure Sound (s : VaultState) : Prop where
  kept : Kept s
  existed : ∀ id c, s.calls id = some c → ∀ d ∈ c.existed, d ∈ s.fireblocks.deposits
  stage : ∀ id c, s.calls id = some c → StageSound s c c.stage

variable {s s' : VaultState}

theorem Advances.refl (s : VaultState) : Advances s s :=
  ⟨fun _ => id, fun _ => id, fun _ scan hscan => ⟨scan, hscan, fun _ => rfl, fun _ _ => .inr⟩⟩

theorem StageSound.advances {c : Lookup} {stage : LookupStage} (h : StageSound s c stage)
    (hadv : Advances s s')
    (hex : ∀ d ∈ c.existed, d ∈ s.fireblocks.deposits) : StageSound s' c stage := by
  match stage, h with
  | .ensuring none, _ => trivial
  | .ensuring (some k), ⟨scan, hscan⟩ =>
    obtain ⟨scan', hscan', -⟩ := hadv.scans k scan hscan
    exact ⟨scan', hscan'⟩
  | .rescanning k, ⟨scan, hscan, howed⟩ =>
    obtain ⟨scan', hscan', -, hreach⟩ := hadv.scans k scan hscan
    refine ⟨scan', hscan', fun address hr d hd hsame => ?_⟩
    rcases howed address hr d hd hsame with hk | hr
    · exact .inl (hadv.known _ hk)
    · exact hreach d (hex d hd) hr
  | .fetchingBalance _, h => exact h
  | .returned _, h => exact h
  | .threw none, h => exact h
  | .threw (some k), h =>
    obtain ⟨scan', hscan', hsame, -⟩ := hadv.scans k _ h
    rw [hsame rfl] at hscan'
    exact hscan'

theorem Sound.advances (hs : Sound s) (hadv : Advances s s') (hkept : Kept s')
    (hcalls : s'.calls = s.calls) : Sound s' := by
  refine ⟨hkept, fun id c hc => ?_, fun id c hc => ?_⟩
  · rw [hcalls] at hc
    exact fun d hd => hadv.deposits d (hs.existed id c hc d hd)
  · rw [hcalls] at hc
    exact (hs.stage id c hc).advances hadv (hs.existed id c hc)

theorem Sound.put {id : ℕ} {c : Lookup} (hs : Sound s)
    (hex : ∀ d ∈ c.existed, d ∈ s.fireblocks.deposits)
    (hstage : StageSound s c c.stage) : Sound (s.put id c) := by
  refine ⟨⟨hs.kept.cached, hs.kept.real, hs.kept.active, hs.kept.inFlight⟩, fun k e he => ?_,
    fun k e he => ?_⟩
  · exact forall_update hs.existed hex he
  · show StageSound s e e.stage
    exact forall_update hs.stage hstage he

/-! ### One step -/

theorem getElem?_append_of_some {l : List Scan} {k : ℕ} {scan : Scan} (h : l[k]? = some scan)
    (e : Scan) : (l ++ [e])[k]? = some scan :=
  (List.getElem?_append_left (List.getElem?_eq_some_iff.mp h).1).trans h

/-- A rescan joins the scan in flight, or starts one that reaches all there is. -/
theorem rescan_cases (s : VaultState) :
    (∃ k, s.activeScan = some k ∧ s.rescan = (k, s)) ∨
      s.activeScan = none ∧ s.rescan = (s.scans.length,
        { s with
          activeScan := some s.scans.length,
          scans := s.scans ++ [.listing s.fireblocks.deposits] }) := by
  unfold VaultState.rescan
  cases s.activeScan with
  | none => exact .inr ⟨rfl, rfl⟩
  | some k => exact .inl ⟨k, rfl, rfl⟩

theorem rescan_calls (s : VaultState) : s.rescan.2.calls = s.calls := by
  rcases rescan_cases s with ⟨k, -, hr⟩ | ⟨-, hr⟩ <;> rw [hr]

theorem Advances.rescan (s : VaultState) : Advances s s.rescan.2 := by
  rcases rescan_cases s with ⟨k, -, hr⟩ | ⟨-, hr⟩
  · rw [hr]
    exact .refl s
  · rw [hr]
    exact ⟨fun _ => id, fun _ => id, fun k scan hscan =>
      ⟨scan, getElem?_append_of_some hscan _, fun _ => rfl, fun _ _ => .inr⟩⟩

theorem Kept.rescan (hs : Kept s) : Kept s.rescan.2 := by
  rcases rescan_cases s with ⟨k, -, hr⟩ | ⟨hnone, hr⟩
  · rw [hr]
    exact hs
  · rw [hr]
    -- the scans there are have settled, so the new one is the only one that runs
    have hscan : ∀ k scan, (s.scans ++ [Scan.listing s.fireblocks.deposits])[k]? = some scan →
        s.scans[k]? = some scan ∨ k = s.scans.length ∧ scan = .listing s.fireblocks.deposits := by
      intro k scan hk
      rw [List.getElem?_append] at hk
      split_ifs at hk with hlt
      · exact .inl hk
      · rw [List.getElem?_singleton] at hk
        split_ifs at hk with hz
        cases hk
        exact .inr ⟨by omega, rfl⟩
    refine ⟨hs.cached, fun k scan hk => ?_, fun k scan hk hrun => ?_, fun k hk => ?_⟩
    · rcases hscan k scan hk with hold | ⟨-, rfl⟩
      · exact hs.real k scan hold
      · exact fun _ => id
    · rcases hscan k scan hk with hold | ⟨rfl, -⟩
      · rw [hs.active k scan hold hrun] at hnone
        cases hnone
      · rfl
    · cases hk
      exact ⟨.listing s.fireblocks.deposits, by simp, rfl⟩

/-- The scan that a rescan awaits. -/
theorem rescan_scan (hs : Kept s) : ∃ scan, s.rescan.2.scans[s.rescan.1]? = some scan := by
  rcases rescan_cases s with ⟨k, hk, hr⟩ | ⟨-, hr⟩
  · rw [hr]
    obtain ⟨scan, hscan, -⟩ := hs.inFlight k hk
    exact ⟨scan, hscan⟩
  · rw [hr]
    exact ⟨.listing s.fireblocks.deposits, by simp⟩

/-- A scan's step: the scan goes on to `next`, and what it owed it has found or still owes. -/
structure ScanMove (s : VaultState) (k : ℕ) (next : Scan) (caches : LeafCaches) : Prop where
  running : ∃ scan : Scan, s.scans[k]? = some scan ∧ scan.isSettled = false ∧
    ∀ d ∈ s.fireblocks.deposits, scan.Reaches d →
      (caches.addressLeafCache.get? d.address.toLower).isSome = true ∨ next.Reaches d
  real : next.Real s.fireblocks.deposits
  known : ∀ key, (s.caches.addressLeafCache.get? key).isSome = true →
    (caches.addressLeafCache.get? key).isSome = true
  cached : ∀ key detail, caches.addressLeafCache.get? key = some detail →
    s.caches.addressLeafCache.get? key = some detail ∨
      ∃ d ∈ s.fireblocks.deposits, d.wallet.vaultId = detail.vaultId ∧ d.address.toLower = key

/-- The state after it. -/
def VaultState.scanned (s : VaultState) (k : ℕ) (next : Scan) (caches : LeafCaches) : VaultState :=
  { s with
    caches := caches
    activeScan := if next.isSettled then none else s.activeScan
    scans := s.scans.set k next }

/-- A step that learns nothing. -/
theorem ScanMove.only {k : ℕ} {scan next : Scan} (hscan : s.scans[k]? = some scan)
    (hrun : scan.isSettled = false) (hreal : next.Real s.fireblocks.deposits)
    (hreach : ∀ d ∈ s.fireblocks.deposits, scan.Reaches d → next.Reaches d) :
    ScanMove s k next s.caches :=
  ⟨⟨scan, hscan, hrun, fun d hd hr => .inr (hreach d hd hr)⟩, hreal, fun _ => id, fun _ _ => .inl⟩

/-- A wallet's addresses are learnt. -/
theorem ScanMove.learnt {k : ℕ} {wallet : Wallet} {addresses : List String} {todo : List Wallet}
    (hs : Kept s) (hscan : s.scans[k]? = some (.describing wallet addresses todo))
    (assetAddress : Option String) : ScanMove s k (.visit s.fireblocks.deposits todo)
      (s.caches.learn wallet assetAddress addresses) := by
  refine ⟨⟨_, hscan, rfl, fun d hd hr => ?_⟩, Scan.real_visit _ _, fun _ => LeafCaches.known_learn,
    fun key detail hk => ?_⟩
  · rcases hr with ⟨-, hmem⟩ | htodo
    · exact .inl (LeafCaches.known_learn_of_mem hmem)
    · exact .inr (Scan.reaches_visit hd htodo)
  · rcases LeafCaches.get?_learn hk with hold | ⟨hv, address, hmem, hkey⟩
    · exact .inl hold
    · exact .inr ⟨_, hs.real k _ hscan address hmem, hv.symm, hkey⟩

theorem scanStep_cases {k : ℕ} {a : VaultAction} (hs : Kept s) (h : scanStep s k a = some s') :
    ∃ next caches, ScanMove s k next caches ∧ s' = s.scanned k next caches := by
  cases a with
  | listed _ vaults =>
    simp only [scanStep] at h
    split at h
    · rename_i began hscan
      split_ifs at h with hlisted
      cases h
      refine ⟨.visit s.fireblocks.deposits (walletsOf vaults), s.caches,
        .only hscan rfl (Scan.real_visit _ _) fun d hd hr => ?_, ?_⟩
      · exact Scan.reaches_visit hd (hlisted d hr)
      · simp [VaultState.scanned, VaultState.setScan, Scan.isSettled_visit]
    · cases h
  | addressed _ addresses =>
    simp only [scanStep] at h
    split at h
    · rename_i asked wallet todo hscan
      split_ifs at h with haddressed
      cases h
      refine ⟨.describing wallet addresses todo, s.caches,
        .only hscan rfl haddressed.2 fun d _ hr => ?_, rfl⟩
      exact hr.imp (fun ⟨hw, hd⟩ => ⟨hw, haddressed.1 d hd hw⟩) id
    · cases h
  | described _ assetAddress =>
    simp only [scanStep] at h
    split at h
    · rename_i wallet addresses todo hscan
      cases h
      refine ⟨.visit s.fireblocks.deposits todo, _, .learnt hs hscan assetAddress, ?_⟩
      simp [VaultState.scanned, VaultState.setScan, Scan.isSettled_visit]
    · cases h
  | scanFailed _ =>
    simp only [scanStep] at h
    split at h
    · rename_i began hscan
      cases h
      exact ⟨.broken, s.caches, .only hscan rfl trivial fun _ _ _ => trivial, rfl⟩
    · rename_i asked wallet todo hscan
      cases h
      exact ⟨.broken, s.caches, .only hscan rfl trivial fun _ _ _ => trivial, rfl⟩
    · rename_i wallet addresses todo hscan
      cases h
      exact ⟨.broken, s.caches, .only hscan rfl trivial fun _ _ _ => trivial, rfl⟩
    · cases h
  | settles _ =>
    simp only [scanStep] at h
    split at h
    · rename_i hscan
      cases h
      exact ⟨.settled true, s.caches, .only hscan rfl trivial fun _ _ hr => hr.elim, rfl⟩
    · rename_i hscan
      cases h
      exact ⟨.settled false, s.caches, .only hscan rfl trivial fun _ _ _ => rfl, rfl⟩
    · cases h
  | _ => cases h

section Scanned

variable {k : ℕ} {next : Scan} {caches : LeafCaches}

theorem getElem?_scanned {scan : Scan} (hscan : s.scans[k]? = some scan) (j : ℕ) :
    (s.scanned k next caches).scans[j]? = if j = k then some next else s.scans[j]? := by
  show (s.scans.set k next)[j]? = _
  split_ifs with hj
  · subst hj
    exact List.getElem?_set_self (List.getElem?_eq_some_iff.mp hscan).1
  · exact List.getElem?_set_ne (Ne.symm hj)

theorem ScanMove.advances (h : ScanMove s k next caches) : Advances s (s.scanned k next caches) := by
  refine ⟨fun _ => id, fun address => h.known _, fun j scan hj => ?_⟩
  obtain ⟨running, hk, hrun, hreach⟩ := h.running
  rw [getElem?_scanned hk]
  split_ifs with hjk
  · subst hjk
    cases hk.symm.trans hj
    exact ⟨next, rfl, fun hset => (nomatch hrun.symm.trans hset), hreach⟩
  · exact ⟨scan, hj, fun _ => rfl, fun _ _ => .inr⟩

theorem ScanMove.kept (hs : Kept s) (h : ScanMove s k next caches) :
    Kept (s.scanned k next caches) := by
  obtain ⟨running, hk, hrun, -⟩ := h.running
  have hactive := hs.active k running hk hrun
  refine ⟨fun key detail hd => ?_, fun j scan hj => ?_, fun j scan hj hjrun => ?_, fun j hj => ?_⟩
  · exact (h.cached key detail hd).elim (hs.cached key detail) id
  · rw [getElem?_scanned hk] at hj
    split_ifs at hj with hjk
    · cases hj
      exact h.real
    · exact hs.real j scan hj
  · rw [getElem?_scanned hk] at hj
    split_ifs at hj with hjk
    · cases hj
      subst hjk
      show (if next.isSettled = true then none else s.activeScan) = some j
      rw [hjrun]
      exact hactive
    · -- only the scan in flight runs
      exact absurd (Option.some.inj (hactive.symm.trans (hs.active j scan hj hjrun))).symm hjk
  · have hj : (if next.isSettled = true then none else s.activeScan) = some j := hj
    split_ifs at hj with hset
    cases hactive.symm.trans hj
    exact ⟨next, by rw [getElem?_scanned hk, if_pos rfl], by simpa using hset⟩

end Scanned

/-- A cached address has the vault that owns it. -/
theorem Sound.owner (hs : Sound s) {address : String} {d : Deposit} (hd : d ∈ s.fireblocks.deposits)
    (hsame : SameUpToCase d.address address) {detail : FlattenedVaultDetails}
    (hk : s.caches.addressLeafCache.get? address.toLower = some detail) :
    detail.vaultId = d.wallet.vaultId := by
  obtain ⟨e, he, hv, hkey⟩ := hs.kept.cached _ _ hk
  have hsame : SameUpToCase e.address d.address := hkey.trans hsame.symm
  rw [← hv]
  exact s.fireblocks.ownedOnce e he d hd hsame

/-- A call that concludes on the owner's entry, or with another request, is right. -/
theorem conclude_sound (hs : Sound s) {c : Lookup} (hex : ∀ d ∈ c.existed, d ∈ s.fireblocks.deposits)
    (hknown : ∀ address, c.request = .getVaultIdForAddress address →
      ∀ d ∈ c.existed, SameUpToCase d.address address → s.Known d.address) :
    StageSound s c (conclude c.request (s.lookup c.request)) := by
  obtain ⟨request, existed, stage⟩ := c
  cases request with
  | getVaultIdForAddress address =>
    intro a ha d hd hsame
    cases ha
    have hk := hknown address rfl d hd hsame
    rw [VaultState.Known, show d.address.toLower = address.toLower from hsame,
      Option.isSome_iff_exists] at hk
    obtain ⟨detail, hk⟩ := hk
    show (s.caches.addressLeafCache.get? address.toLower).map _ = _
    rw [hk, Option.map_some, hs.owner (hex d hd) hsame hk]
  | balance depositAddress tokenAddress =>
    show StageSound s _
      (conclude (.balance depositAddress tokenAddress)
        (s.lookup (.balance depositAddress tokenAddress)))
    cases s.lookup (.balance depositAddress tokenAddress) with
    | none => exact nofun
    | some detail => exact nofun

theorem lookup_known {c : Lookup} {address : String} (hr : c.request = .getVaultIdForAddress address)
    {d : Deposit} (hsame : SameUpToCase d.address address) {detail : FlattenedVaultDetails}
    (hl : s.lookup c.request = some detail) :
    s.Known d.address := by
  rw [hr] at hl
  rw [VaultState.Known, show d.address.toLower = address.toLower from hsame]
  exact Option.isSome_iff_exists.mpr ⟨detail, hl⟩

/-- What a call owes after it has joined or started a scan. -/
theorem rescanning_sound (hs : Sound s) {c : Lookup} (hex : ∀ d ∈ c.existed, d ∈ s.fireblocks.deposits)
    (hjoin : ∀ address, c.request = .getVaultIdForAddress address →
      ∀ k ∈ s.activeScan, ∀ scan ∈ s.scans[k]?,
      ∀ d ∈ c.existed, SameUpToCase d.address address → Scan.Reaches d scan) :
    StageSound s.rescan.2 c (.rescanning s.rescan.1) := by
  rcases rescan_cases s with ⟨k, hk, hr⟩ | ⟨-, hr⟩
  · rw [hr]
    obtain ⟨scan, hscan, -⟩ := hs.kept.inFlight k hk
    exact ⟨scan, hscan, fun address ha d hd hsame => .inr (hjoin address ha k hk scan hscan d hd hsame)⟩
  · rw [hr]
    exact ⟨.listing s.fireblocks.deposits, by simp, fun _ _ d hd _ => .inr (hex d hd)⟩

/-- What `proceed` leads to. -/
theorem proceed_sound (hs : Sound s) {id : ℕ} {c : Lookup} (hc : s.calls id = some c)
    (hok : LooksInTime s c)
    {stage : LookupStage} {t : VaultState} (h : proceed s c = some (stage, t)) :
    Advances s t ∧ Kept t ∧ t.calls = s.calls ∧ StageSound t c stage := by
  have hex := hs.existed id c hc
  have hstage := hs.stage id c hc
  unfold proceed at h
  split at h
  · rename_i hens
    split at h
    · rename_i detail hl
      cases h
      refine ⟨.refl s, hs.kept, rfl, ?_⟩
      rw [← hl]
      exact conclude_sound hs hex fun address hr d _ hsame => lookup_known hr hsame hl
    · rename_i hl
      cases h
      refine ⟨.rescan s, hs.kept.rescan, rescan_calls s, rescanning_sound hs hex fun address hr => ?_⟩
      rw [hr] at hl
      simp only [LooksInTime, hr, hens] at hok
      exact hok hl
  · split at h
    · cases h
      exact ⟨⟨fun _ hd => hd, fun _ hk => hk,
        fun _ scan hscan => ⟨scan, hscan, fun _ => rfl, fun _ _ => .inr⟩⟩,
        ⟨hs.kept.cached, hs.kept.real, hs.kept.active, hs.kept.inFlight⟩, rfl, trivial⟩
    · rename_i hscan
      cases h
      exact ⟨.refl s, hs.kept, rfl, hscan⟩
    · cases h
  · rename_i k hre
    rw [hre] at hstage
    split at h
    · rename_i hscan
      cases h
      -- a scan that has settled owes nothing
      refine ⟨.refl s, hs.kept, rfl, conclude_sound hs hex fun address hr d hd hsame => ?_⟩
      obtain ⟨scan, hk, howed⟩ := hstage
      cases hscan.symm.trans hk
      exact (howed address hr d hd hsame).resolve_right nofun
    · rename_i hscan
      cases h
      exact ⟨.refl s, hs.kept, rfl, hscan⟩
    · cases h
  · cases h

theorem Sound.step {a : VaultAction} (hs : Sound s) (hok : JoinsInTime s a)
    (h : vaultStep s a = some s') : Sound s' := by
  -- what the scan in flight does to calls
  have hscan : ∀ k, scanStep s k a = some s' → Sound s' := by
    intro k hk
    obtain ⟨next, caches, hmove, rfl⟩ := scanStep_cases hs.kept hk
    exact hs.advances hmove.advances (hmove.kept hs.kept) rfl
  cases a with
  | created d =>
    obtain ⟨fireblocks, hf, rfl⟩ := Option.map_eq_some_iff.mp h
    have hsub : ∀ e ∈ s.fireblocks.deposits, e ∈ fireblocks.deposits := by
      rw [Directory.deposits_create hf]
      exact fun e he => List.mem_cons_of_mem _ he
    refine hs.advances ⟨hsub, fun _ => id, fun _ scan hk => ⟨scan, hk, fun _ => rfl, fun _ _ => .inr⟩⟩
      ⟨?_, ?_, ?_, ?_⟩ rfl
    · intro key detail hk
      obtain ⟨e, he, hrest⟩ := hs.kept.cached key detail hk
      exact ⟨e, hsub e he, hrest⟩
    · exact fun k scan hk => (hs.kept.real k scan hk).mono hsub
    · exact hs.kept.active
    · exact hs.kept.inFlight
  | called id request =>
    simp only [vaultStep] at h
    split at h
    · cases h
    · cases h
      unfold VaultState.ensureInitialScan
      split_ifs
      · exact hs.put (fun _ hd => hd) trivial
      · have hadvanced := hs.advances (.rescan s) hs.kept.rescan (rescan_calls s)
        exact hadvanced.put (Advances.rescan s).deposits (rescan_scan hs.kept)
  | proceeds id =>
    simp only [vaultStep] at h
    split at h
    · rename_i c hc
      obtain ⟨⟨stage, t⟩, hp, rfl⟩ := Option.map_eq_some_iff.mp h
      obtain ⟨hadv, hkept, hcalls, hstage⟩ := proceed_sound hs hc (hok c hc) hp
      exact (hs.advances hadv hkept hcalls).put
        (fun d hd => hadv.deposits d (hs.existed id c hc d hd)) hstage
    · cases h
  | balanceAnswered id available =>
    simp only [vaultStep] at h
    split at h
    · rename_i request existed detail hc
      cases h
      have hex := hs.existed id _ hc
      have hstage := hs.stage id _ hc
      exact hs.put hex fun address hr => absurd hr (hstage address)
    · cases h
  | balanceFailed id =>
    simp only [vaultStep] at h
    split at h
    · rename_i request existed detail hc
      cases h
      have hex := hs.existed id _ hc
      have hstage := hs.stage id _ hc
      exact hs.put hex hstage
    · cases h
  | listed k vaults => exact hscan k h
  | addressed k addresses => exact hscan k h
  | described k assetAddress => exact hscan k h
  | scanFailed k => exact hscan k h
  | settles k => exact hscan k h

theorem sound_idle (fireblocks : Directory) : Sound (.idle fireblocks) :=
  ⟨⟨nofun, nofun, nofun, nofun⟩, nofun, nofun⟩

theorem sound_of_run (fireblocks : Directory)
    (h : ReachUnder vaultStep JoinsInTime (.idle fireblocks) s) : Sound s :=
  h.invariant (sound_idle fireblocks) fun _ _ _ hs hok hstep => hs.step hok hstep

end FinP2PAdapter.Fireblocks
