import FinP2PAdapter.Fireblocks.SharedScan

/-! `getVaultIdForAddress` returns the owning vault, in runs in which no lookup joins a
scan that may miss its address. -/

namespace FinP2PAdapter.Fireblocks

open Machine

variable {s s' : VaultState}

/-! ### Calls return -/

/-- Runs in which the API answers. -/
abbrev Answered : VaultState → VaultState → Prop :=
  ReachUnder vaultStep fun s a => JoinsInTime s a ∧ Succeeds a

theorem Answered.sound (hs : Sound s) (h : Answered s s') : Sound s' :=
  h.invariant hs fun _ _ _ hs hok hstep => hs.step hok.1 hstep

/-- How many answers a scan may still need. -/
def Scan.rank : Scan → ℕ
  | .listing began => 2 * began.length + 3
  | .fetching _ _ todo => 2 * todo.length + 3
  | .describing _ _ todo => 2 * todo.length + 2
  | .collected | .broken => 1
  | .settled _ => 0

theorem Scan.rank_visit (deposits : List Deposit) (todo : List Wallet) :
    (visit deposits todo).rank ≤ 2 * todo.length + 1 := by
  cases todo with
  | nil => exact Nat.le_refl _
  | cons wallet todo =>
    show 2 * todo.length + 3 ≤ 2 * (todo.length + 1) + 1
    omega

theorem Scan.failed_visit (deposits : List Deposit) (todo : List Wallet) :
    (visit deposits todo).failed = false := by
  cases todo <;> rfl

/-- A traversal that answers with what there was when it began. -/
def listingOf (began : List Deposit) : List VaultAccount :=
  began.map fun d => ⟨d.wallet.vaultId, some [d.wallet.assetId]⟩

theorem walletsOf_listingOf (began : List Deposit) :
    walletsOf (listingOf began) = began.map Deposit.wallet := by
  simp only [walletsOf, listingOf, List.flatMap_map, Option.getD_some, List.map_cons, List.map_nil]
  exact List.map_eq_flatMap.symm

/-- The API has an answer for a scan that runs, and it brings the scan nearer to its end. -/
theorem scan_serves (hs : Kept s) {k : ℕ} {scan : Scan} (hscan : s.scans[k]? = some scan)
    (hrun : scan.isSettled = false) :
    ∃ a next caches, vaultStep s a = some (s.scanned k next caches) ∧ JoinsInTime s a ∧ Succeeds a ∧
      (scan.failed = false → next.failed = false) ∧ next.rank < scan.rank := by
  cases scan with
  | listing began =>
    refine ⟨.listed k (listingOf began), .visit s.fireblocks.deposits (began.map Deposit.wallet),
      s.caches, ?_, trivial, trivial, fun _ => Scan.failed_visit _ _, ?_⟩
    · have hlisted : ∀ d ∈ began, d.wallet ∈ began.map Deposit.wallet := fun d hd =>
        List.mem_map_of_mem hd
      simp only [vaultStep, scanStep, hscan, walletsOf_listingOf]
      rw [if_pos hlisted]
      simp [VaultState.scanned, VaultState.setScan, Scan.isSettled_visit]
    · have hle := Scan.rank_visit s.fireblocks.deposits (began.map Deposit.wallet)
      rw [List.length_map] at hle
      show _ < 2 * began.length + 3
      omega
  | fetching asked wallet todo =>
    have hreal := hs.real k _ hscan
    refine ⟨.addressed k ((asked.filter fun d => d.wallet = wallet).map Deposit.address),
      .describing wallet ((asked.filter fun d => d.wallet = wallet).map Deposit.address) todo,
      s.caches, ?_, trivial, trivial, fun _ => rfl, Nat.lt_succ_self _⟩
    simp only [vaultStep, scanStep, hscan]
    rw [if_pos]
    · rfl
    · constructor
      · exact fun d hd hw => List.mem_map_of_mem (List.mem_filter.mpr ⟨hd, by simpa using hw⟩)
      · intro address ha
        obtain ⟨d, hd, rfl⟩ := List.mem_map.mp ha
        obtain ⟨hd, hw⟩ := List.mem_filter.mp hd
        rw [← of_decide_eq_true hw]
        exact hreal d hd
  | describing wallet addresses todo =>
    refine ⟨.described k none, .visit s.fireblocks.deposits todo,
      s.caches.learn wallet none addresses, ?_, trivial, trivial,
      fun _ => Scan.failed_visit _ _, ?_⟩
    · simp only [vaultStep, scanStep, hscan]
      simp [VaultState.scanned, VaultState.setScan, Scan.isSettled_visit]
    · exact Nat.lt_succ_of_le (Scan.rank_visit _ _)
  | collected =>
    refine ⟨.settles k, .settled true, s.caches, ?_, trivial, trivial, fun _ => rfl, Nat.zero_lt_one⟩
    simp only [vaultStep, scanStep, hscan]
    rfl
  | broken =>
    refine ⟨.settles k, .settled false, s.caches, ?_, trivial, trivial, fun hf => ?_, Nat.zero_lt_one⟩
    · simp only [vaultStep, scanStep, hscan]
      rfl
    · cases hf
  | settled succeeded => cases hrun

/-- Scans that have not failed yet do not fail. -/
def Spares (s t : VaultState) : Prop :=
  ∀ (k : ℕ) (scan : Scan), s.scans[k]? = some scan → scan.failed = false →
    ∃ scan' : Scan, t.scans[k]? = some scan' ∧ scan'.failed = false

/-- The scan in flight can run to its end. -/
theorem exists_idle (hs : Sound s) :
    ∃ t, Answered s t ∧ t.activeScan = none ∧ t.calls = s.calls ∧ Spares s t := by
  suffices hn : ∀ (n : ℕ) (s : VaultState), Sound s →
      (∀ (k : ℕ) (scan : Scan), s.activeScan = some k → s.scans[k]? = some scan → scan.rank ≤ n) →
      ∃ t, Answered s t ∧ t.activeScan = none ∧ t.calls = s.calls ∧ Spares s t by
    cases hk : s.activeScan with
    | none => exact ⟨s, .start, hk, rfl, fun _ scan hscan hf => ⟨scan, hscan, hf⟩⟩
    | some k =>
      obtain ⟨scan, hscan, -⟩ := hs.kept.inFlight k hk
      refine hn scan.rank s hs fun j scan' hj hscan' => ?_
      cases hk.symm.trans hj
      cases hscan.symm.trans hscan'
      exact Nat.le_refl _
  intro n
  induction n with
  | zero =>
    intro s hs hle
    refine ⟨s, .start, ?_, rfl, fun _ scan hscan hf => ⟨scan, hscan, hf⟩⟩
    -- a scan in flight needs at least one more answer
    by_contra hne
    obtain ⟨k, hk⟩ := Option.ne_none_iff_exists'.mp hne
    obtain ⟨scan, hscan, hrun⟩ := hs.kept.inFlight k hk
    obtain ⟨_, _, _, _, _, _, _, hlt⟩ := scan_serves hs.kept hscan hrun
    have hzero := hle k scan hk hscan
    omega
  | succ n ih =>
    intro s hs hle
    cases hk : s.activeScan with
    | none => exact ⟨s, .start, hk, rfl, fun _ scan hscan hf => ⟨scan, hscan, hf⟩⟩
    | some k =>
      obtain ⟨scan, hscan, hrun⟩ := hs.kept.inFlight k hk
      obtain ⟨a, next, caches, hstep, hjoin, hsucc, hfailed, hlt⟩ := scan_serves hs.kept hscan hrun
      have hrank := hle k scan hk hscan
      have hget : ∀ j : ℕ, (s.scanned k next caches).scans[j]? =
          if j = k then some next else s.scans[j]? :=
        getElem?_scanned hscan
      have hnext : ∀ (j : ℕ) (scan' : Scan), (s.scanned k next caches).activeScan = some j →
          (s.scanned k next caches).scans[j]? = some scan' → scan'.rank ≤ n := by
        intro j scan' hj hscan'
        have hj : (if next.isSettled = true then none else s.activeScan) = some j := hj
        split_ifs at hj
        cases hk.symm.trans hj
        rw [hget, if_pos rfl] at hscan'
        cases hscan'
        omega
      obtain ⟨t, hrun, hidle, hcalls, hspare⟩ := ih _ (hs.step hjoin hstep) hnext
      refine ⟨t, (Runs.single ⟨hjoin, hsucc⟩ hstep).trans hrun, hidle, hcalls, fun j scan' hj hf => ?_⟩
      by_cases hjk : j = k
      · subst hjk
        cases hscan.symm.trans hj
        exact hspare j next (by rw [hget, if_pos rfl]) (hfailed hf)
      · exact hspare j scan' (by rw [hget, if_neg hjk]; exact hj) hf

/-- A scan that ends well has succeeded. -/
theorem succeeded_of_idle (hs : Kept s) (hidle : s.activeScan = none) {k : ℕ} {scan : Scan}
    (hscan : s.scans[k]? = some scan) (hf : scan.failed = false) :
    s.scans[k]? = some (.settled true) := by
  have hset : scan.isSettled = true := by
    by_contra hrun
    have hactive := hs.active k scan hscan (by simpa using hrun)
    rw [hidle] at hactive
    cases hactive
  match scan, hset, hf with
  | .settled true, _, _ => exact hscan

/-- The call has returned, at the end of some run in which the API answers. -/
def CanReturn (s : VaultState) (id : ℕ) (c : Lookup) : Prop :=
  ∃ t value, Answered s t ∧ t.calls id = some { c with stage := .returned value }

theorem CanReturn.of_run {id : ℕ} {c : Lookup} (hrun : Answered s s') (h : CanReturn s' id c) :
    CanReturn s id c := by
  obtain ⟨t, value, ht, hc⟩ := h
  exact ⟨t, value, hrun.trans ht, hc⟩

section Return

variable {id : ℕ} {existed : List Deposit} {address : String}

/-- One step of the call itself. -/
theorem run_proceed {c : Lookup} (hc : s.calls id = some c) {stage : LookupStage} {t : VaultState}
    (hp : proceed s c = some (stage, t)) (hjoin : JoinsInTime s (.proceeds id)) :
    Answered s (t.put id { c with stage := stage }) := by
  refine .single (a := .proceeds id) ⟨hjoin, trivial⟩ ?_
  simp only [vaultStep, hc, hp]
  rfl

theorem joins_of_idle (hidle : s.activeScan = none) (id : ℕ) : JoinsInTime s (.proceeds id) := by
  intro c _
  unfold LooksInTime
  split
  · intro _ k hk
    rw [hidle] at hk
    cases hk
  · trivial

theorem canReturn_rescanning (hs : Sound s) {k : ℕ}
    (hc : s.calls id = some ⟨.getVaultIdForAddress address, existed, .rescanning k⟩)
    (hf : ∀ scan : Scan, s.scans[k]? = some scan → scan.failed = false) :
    CanReturn s id ⟨.getVaultIdForAddress address, existed, .rescanning k⟩ := by
  obtain ⟨t, hrun, hidle, hcalls, hspare⟩ := exists_idle hs
  obtain ⟨scan, hscan, -⟩ := hs.stage id _ hc
  obtain ⟨scan', hscan', hf'⟩ := hspare k scan hscan (hf scan hscan)
  have hset := succeeded_of_idle (hrun.sound hs).kept hidle hscan' hf'
  have hc : t.calls id = some ⟨.getVaultIdForAddress address, existed, .rescanning k⟩ := hcalls ▸ hc
  have hp : proceed t ⟨.getVaultIdForAddress address, existed, .rescanning k⟩ =
      some (.returned ((t.lookup (.getVaultIdForAddress address)).map
        FlattenedVaultDetails.vaultId), t) := by
    simp only [proceed, hset]
    rfl
  exact ⟨_, _, hrun.trans (run_proceed hc hp (joins_of_idle hidle id)), Function.update_self ..⟩

theorem canReturn_checking (hs : Sound s)
    (hc : s.calls id = some ⟨.getVaultIdForAddress address, existed, .ensuring none⟩) :
    CanReturn s id ⟨.getVaultIdForAddress address, existed, .ensuring none⟩ := by
  obtain ⟨t, hrun, hidle, hcalls, -⟩ := exists_idle hs
  have hc : t.calls id = some ⟨.getVaultIdForAddress address, existed, .ensuring none⟩ := hcalls ▸ hc
  cases hl : t.lookup (.getVaultIdForAddress address) with
  | some detail =>
    have hp : proceed t ⟨.getVaultIdForAddress address, existed, .ensuring none⟩ =
        some (.returned (some detail.vaultId), t) := by
      simp only [proceed, hl]
      rfl
    exact ⟨_, _, hrun.trans (run_proceed hc hp (joins_of_idle hidle id)), Function.update_self ..⟩
  | none =>
    -- nothing is in flight, so the call starts a scan of its own
    have hp : proceed t ⟨.getVaultIdForAddress address, existed, .ensuring none⟩ =
        some (.rescanning t.rescan.1, t.rescan.2) := by
      simp only [proceed, hl]
    have hgo := run_proceed hc hp (joins_of_idle hidle id)
    refine .of_run (hrun.trans hgo) ?_
    refine canReturn_rescanning (hgo.sound (hrun.sound hs))
      (Function.update_self ..) fun scan hscan => ?_
    rcases rescan_cases t with ⟨k, hk, -⟩ | ⟨-, hr⟩
    · rw [hidle] at hk
      cases hk
    · have hscan : t.rescan.2.scans[t.rescan.1]? = some scan := hscan
      rw [hr, List.getElem?_concat_length] at hscan
      cases hscan
      rfl

theorem canReturn (hs : Sound s) {c : Lookup} (hc : s.calls id = some c)
    (hr : c.request = .getVaultIdForAddress address)
    (hf : ∀ k, c.awaits = some k → ∀ scan : Scan, s.scans[k]? = some scan → scan.failed = false) :
    CanReturn s id c := by
  have hstage := hs.stage id c hc
  obtain ⟨request, existed, stage⟩ := c
  dsimp only at hr
  subst hr
  match stage with
  | .ensuring none => exact canReturn_checking hs hc
  | .ensuring (some k) =>
    obtain ⟨t, hrun, hidle, hcalls, hspare⟩ := exists_idle hs
    obtain ⟨scan, hscan⟩ := hstage
    obtain ⟨scan', hscan', hf'⟩ := hspare k scan hscan (hf k rfl scan hscan)
    have hset := succeeded_of_idle (hrun.sound hs).kept hidle hscan' hf'
    have hc : t.calls id = some ⟨.getVaultIdForAddress address, existed, .ensuring (some k)⟩ :=
      hcalls ▸ hc
    have hp : proceed t ⟨.getVaultIdForAddress address, existed, .ensuring (some k)⟩ =
        some (.ensuring none, { t with initialScanComplete := true }) := by
      simp only [proceed, hset]
    have hgo := run_proceed hc hp (joins_of_idle hidle id)
    exact .of_run (hrun.trans hgo) (canReturn_checking (hgo.sound (hrun.sound hs))
      (Function.update_self ..))
  | .rescanning k => exact canReturn_rescanning hs hc (hf k rfl)
  | .fetchingBalance detail => exact absurd rfl (hstage address)
  | .returned value => exact ⟨s, value, .start, hc⟩
  | .threw none => exact absurd rfl (hstage address)
  | .threw (some k) =>
    have hfailed := hf k rfl _ hstage
    cases hfailed

end Return

/-- In every run in which a lookup that misses the cache while a scan is in flight joins
one that is bound to come upon the address: a `getVaultIdForAddress` call for an address
that a vault owned before the call returns nothing but that vault's id, and unless the
scan it awaits has failed it has returned it, or goes on to as the API answers. -/
theorem owning_vault_found (fireblocks : Directory) (s : VaultState)
    (h : ReachUnder vaultStep JoinsInTime (.idle fireblocks) s) (id : ℕ) (c : Lookup) (address : String)
    (hc : s.calls id = some c) (hr : c.request = .getVaultIdForAddress address) (d : Deposit)
    (hd : d ∈ c.existed) (hsame : SameUpToCase d.address address) :
    (∀ value, c.stage = .returned value → value = some d.wallet.vaultId) ∧
    ((∃ k scan, c.awaits = some k ∧ s.scans[k]? = some scan ∧ scan.failed = true) ∨
      ∃ t, Answered s t ∧ t.calls id = some { c with stage := .returned (some d.wallet.vaultId) }) := by
  have hs := sound_of_run fireblocks h
  have hright : ∀ t value e, Sound t → t.calls id = some e → e.request = c.request →
      e.existed = c.existed → e.stage = .returned value → value = some d.wallet.vaultId := by
    intro t value e ht he hreq hex hret
    have hstage := ht.stage id e he
    rw [hret] at hstage
    exact hstage address (hreq.trans hr) d (hex ▸ hd) hsame
  refine ⟨fun value hret => hright s value c hs hc rfl rfl hret, ?_⟩
  by_cases hf : ∀ k, c.awaits = some k → ∀ scan : Scan, s.scans[k]? = some scan → scan.failed = false
  · obtain ⟨t, value, hrun, ht⟩ := canReturn hs hc hr hf
    have hvalue := hright t value _ (hrun.sound hs) ht rfl rfl rfl
    subst hvalue
    exact .inr ⟨t, hrun, ht⟩
  · push Not at hf
    obtain ⟨k, hk, scan, hscan, hfailed⟩ := hf
    exact .inl ⟨k, scan, hk, hscan, by simpa using hfailed⟩

/-! ### Two vaults -/

instance (d : Deposit) : (scan : Scan) → Decidable (scan.Reaches d)
  | .listing began => inferInstanceAs (Decidable (d ∈ began))
  | .fetching asked wallet todo =>
    inferInstanceAs (Decidable ((d.wallet = wallet ∧ d ∈ asked) ∨ d.wallet ∈ todo))
  | .describing wallet addresses todo =>
    inferInstanceAs (Decidable ((d.wallet = wallet ∧ d.address ∈ addresses) ∨ d.wallet ∈ todo))
  | .collected => .isFalse id
  | .broken => .isTrue trivial
  | .settled succeeded => inferInstanceAs (Decidable (succeeded = false))

instance (s : VaultState) : (c : Lookup) → Decidable (LooksInTime s c)
  | ⟨.getVaultIdForAddress address, existed, .ensuring none⟩ =>
    inferInstanceAs (Decidable (s.lookup (.getVaultIdForAddress address) = none →
      ∀ k ∈ s.activeScan, ∀ scan ∈ s.scans[k]?, ∀ d ∈ existed, SameUpToCase d.address address →
        Scan.Reaches d scan))
  | ⟨.getVaultIdForAddress _, _, .ensuring (some _)⟩ | ⟨.getVaultIdForAddress _, _, .rescanning _⟩
  | ⟨.getVaultIdForAddress _, _, .fetchingBalance _⟩ | ⟨.getVaultIdForAddress _, _, .returned _⟩
  | ⟨.getVaultIdForAddress _, _, .threw _⟩ | ⟨.balance _ _, _, _⟩ => .isTrue trivial

instance (s : VaultState) (a : VaultAction) : Decidable (JoinsInTime s a) :=
  match a with
  | .proceeds id => inferInstanceAs (Decidable (∀ c ∈ s.calls id, LooksInTime s c))
  | .created _ | .called _ _ | .balanceAnswered _ _ | .balanceFailed _ | .listed _ _ | .addressed _ _
  | .described _ _ | .scanFailed _ | .settles _ => .isTrue trivial

def treasuryDeposit : Deposit := ⟨⟨"1", "ETH_TEST5"⟩, "0xA1"⟩

def investorDeposit : Deposit := ⟨⟨"2", "ETH_TEST5"⟩, "0xB2"⟩

/-- The treasury's vault alone. -/
def treasury : Directory := ⟨[treasuryDeposit], by decide +kernel⟩

/-- The treasury's vault is looked up, which scans. -/
def treasuryLookup : List VaultAction :=
  [.called 0 (.getVaultIdForAddress "0xA1"), .listed 0 [⟨"1", some ["ETH_TEST5"]⟩],
    .addressed 0 ["0xA1"], .described 0 none, .settles 0, .proceeds 0, .proceeds 0]

/-- The investor's vault is created and looked up, and a scan of its own finds it. -/
theorem investor_found : ∃ (s : VaultState) (value : Option String), s.calls 1 =
      some ⟨.getVaultIdForAddress "0xb2", [investorDeposit, treasuryDeposit], .returned value⟩ ∧
        value = some "2" := by
  have hrun : (exec (guarded vaultStep JoinsInTime) (.idle treasury) (treasuryLookup ++
      [.created investorDeposit, .called 1 (.getVaultIdForAddress "0xb2"), .proceeds 1,
        .listed 1 [⟨"1", some ["ETH_TEST5"]⟩, ⟨"2", some ["ETH_TEST5"]⟩],
        .addressed 1 ["0xA1"], .described 1 none, .addressed 1 ["0xB2"], .described 1 none,
        .settles 1, .proceeds 1])).map (fun s => s.calls 1) =
      some (some ⟨.getVaultIdForAddress "0xb2", [investorDeposit, treasuryDeposit],
        .returned (some "2")⟩) := by
    decide +kernel
  obtain ⟨s, hs, hc⟩ := Option.map_eq_some_iff.mp hrun
  refine ⟨s, some "2", hc, ?_⟩
  exact (owning_vault_found treasury s (reachUnder_of_exec hs) 1 _ "0xb2" hc rfl investorDeposit
    List.mem_cons_self (by decide +kernel)).1 _ rfl

/-- The investor's vault is created while a scan that another lookup started is past its
listing: the lookup of its address joins that scan and returns nothing. -/
theorem investor_missed : ∃ s, Reach vaultStep (.idle treasury) s ∧
    SameUpToCase investorDeposit.address "0xb2" ∧
    s.calls 2 = some ⟨.getVaultIdForAddress "0xb2", [investorDeposit, treasuryDeposit],
      .returned none⟩ := by
  have hrun : (exec vaultStep (.idle treasury) (treasuryLookup ++
      [.called 1 (.balance "0xC3" "0xD4"), .proceeds 1, .listed 1 [⟨"1", some ["ETH_TEST5"]⟩],
        .created investorDeposit, .called 2 (.getVaultIdForAddress "0xb2"), .proceeds 2,
        .addressed 1 ["0xA1"], .described 1 none, .settles 1, .proceeds 2])).map
          (fun s => s.calls 2) =
      some (some ⟨.getVaultIdForAddress "0xb2", [investorDeposit, treasuryDeposit],
        .returned none⟩) := by
    decide +kernel
  obtain ⟨s, hs, hc⟩ := Option.map_eq_some_iff.mp hrun
  exact ⟨s, reach_of_exec hs, by decide +kernel, hc⟩

end FinP2PAdapter.Fireblocks
