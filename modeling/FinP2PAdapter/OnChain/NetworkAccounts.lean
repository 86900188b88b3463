import FinP2PAdapter.Custody.NetworkAccounts

/-! Onboarding for the operator contract. A `createAccount` call writes the investor's
wallet into the contract's credentials registry and only then has the store insert the
binding, so what the store answers decides whether the two agree. They do as long as it
answers the insert of a wallet that was newly registered with a binding of that wallet. -/

namespace FinP2PAdapter.OnChain

open Custody Machine

inductive WalletResolutionMode where
  | walletMapping | finIdDerivation
  deriving DecidableEq, Repr

/-- A deployment; `replays` says which rows the store takes an insert to repeat. -/
structure Onboarding where
  resolutionMode : WalletResolutionMode
  validator : Option (NetworkAccount → Except String Unit)
  replays : CreateRequest → Row → Bool

/-! ### One call -/

inductive AccountStage where
  | registering (address : String)
  | inserting
  | returned (account : NetworkAccount)
  | noAccount
  | failed (message : String)
  | thrown (message : String)
  deriving DecidableEq, Repr

/-- `wrote` is the wallet the call has registered, if that was new. -/
structure AccountCall where
  request : CreateRequest
  stage : AccountStage
  wrote : Option String
  deriving DecidableEq, Repr

def validate (cfg : Onboarding) (account : NetworkAccount) : Except String Unit :=
  match cfg.validator with
  | none => .ok ()
  | some validate => validate account

/-- Up to the first await that matters to others. -/
def createAccount (cfg : Onboarding) (bindInfo : Option BindInfo) : AccountStage :=
  match bindInfo with
  | none =>
    match cfg.resolutionMode with
    | .finIdDerivation => .noAccount
    | .walletMapping => .inserting
  | some bindInfo =>
    match validate cfg bindInfo.account with
    | .error message => .thrown message
    | .ok () =>
      match cfg.resolutionMode with
      | .finIdDerivation => .returned bindInfo.account
      | .walletMapping =>
        match bindInfo.account with
        | .walletAccount address => .registering address
        | _ => .inserting

/-! ### Any number of calls -/

/-- `registry` is the contract's: wallets by finId, in lower case. -/
structure OnboardingState where
  registry : String → Option String
  rows : List Row
  calls : ℕ → Option AccountCall

inductive OnboardingAction where
  | createAccount (id : ℕ) (request : CreateRequest)
  | credentialAdded (id : ℕ) (revert : Option String)
  | inserted (id : ℕ) (outcome : InsertOutcome)
  deriving DecidableEq, Repr

def OnboardingState.put (s : OnboardingState) (id : ℕ) (c : AccountCall) : OnboardingState :=
  { s with calls := Function.update s.calls id (some c) }

/-- The base class's insert, and the store's answer to it. -/
def insertAccount (cfg : Onboarding) (s : OnboardingState) (id : ℕ) (c : AccountCall) :
    InsertOutcome → Option OnboardingState
  | .throws message => some (s.put id { c with stage := .thrown message })
  | .fails message => some (s.put id { c with stage := .failed message })
  | .inserts => (storeInsert cfg.replays s.rows c.request c.request.bindInfo).map fun (row, rows) =>
    { s with rows := rows }.put id { c with stage := .returned row.account }

def onboardingStep (cfg : Onboarding) (s : OnboardingState) : OnboardingAction → Option OnboardingState
  | .createAccount id request =>
    match s.calls id with
    | some _ => none
    | none => some (s.put id ⟨request, createAccount cfg request.bindInfo, none⟩)
  | .credentialAdded id revert =>
    match s.calls id with
    | some ⟨request, .registering address, _⟩ =>
      match revert with
      | some message => some (s.put id ⟨request, .thrown message, none⟩)
      | none =>
        let wallet := address.toLower
        some ({ s with registry := Function.update s.registry request.finId (some wallet) }.put id
          ⟨request, .inserting, if s.registry request.finId = some wallet then none else some wallet⟩)
    | _ => none
  | .inserted id outcome =>
    match s.calls id with
    | some c => if c.stage = .inserting then insertAccount cfg s id c outcome else none
    | none => none

/-! ### The two stores -/

def binds (finId wallet : String) (row : Row) : Bool :=
  row.finId == finId && match row.account with
    | .walletAccount address => address.toLower == wallet
    | _ => false

/-- The account store records a binding of the finId to the wallet. -/
def recorded (rows : List Row) (finId wallet : String) : Bool := rows.any (binds finId wallet)

/-- A call that has newly registered the wallet awaits the store. -/
def Awaited (s : OnboardingState) (finId wallet : String) : Prop :=
  ∃ id c, s.calls id = some c ∧ c.stage = .inserting ∧ c.request.finId = finId ∧ c.wrote = some wallet

/-- When the insert of a newly registered wallet is answered, the call does not throw and
the store records the binding, if the wallet is still registered. -/
def AnswersWithBinding (cfg : Onboarding) (s : OnboardingState) : OnboardingAction → Prop
  | .inserted id outcome => ∀ c ∈ s.calls id, ∀ wallet ∈ c.wrote,
    match outcome with
    | .throws _ => False
    | .fails _ => s.registry c.request.finId = some wallet →
      recorded s.rows c.request.finId wallet = true
    | .inserts => ∀ answer ∈ storeInsert cfg.replays s.rows c.request c.request.bindInfo,
      s.registry c.request.finId = some wallet → recorded answer.2 c.request.finId wallet = true
  | _ => True

/-- What is registered is recorded or about to be, and calls that threw have registered
nothing new. -/
structure Aligned (s : OnboardingState) : Prop where
  registered : ∀ finId wallet, s.registry finId = some wallet →
    recorded s.rows finId wallet = true ∨ Awaited s finId wallet
  thrown : ∀ id c message, s.calls id = some c → c.stage = .thrown message → c.wrote = none

variable {cfg : Onboarding} {s s' : OnboardingState}

theorem mem_storeInsert {replays : CreateRequest → Row → Bool} {rows : List Row}
    {request : CreateRequest} {bind : Option BindInfo} {answer : Row × List Row}
    (h : storeInsert replays rows request bind = some answer) : ∀ row ∈ rows, row ∈ answer.2 := by
  unfold storeInsert at h
  split at h
  · cases h
    exact fun _ => id
  · obtain ⟨b, -, rfl⟩ := Option.map_eq_some_iff.mp h
    exact fun row hrow => List.mem_append_left _ hrow

theorem recorded_mono {rows rows' : List Row} (h : ∀ row ∈ rows, row ∈ rows') {finId wallet : String}
    (hr : recorded rows finId wallet = true) : recorded rows' finId wallet = true := by
  simp only [recorded, List.any_eq_true] at hr ⊢
  obtain ⟨row, hrow, hb⟩ := hr
  exact ⟨row, h row hrow, hb⟩

/-- The calls of the others await what they awaited. -/
theorem Awaited.put {finId wallet : String} {t : OnboardingState} {id : ℕ} {c : AccountCall}
    (h : Awaited s finId wallet) (hcalls : t.calls = s.calls)
    (hid : ∀ d, s.calls id = some d → d.stage = .inserting → d.request.finId = finId →
      d.wrote ≠ some wallet) :
    Awaited (t.put id c) finId wallet := by
  obtain ⟨k, d, hd, hstage, hfinId, hwrote⟩ := h
  have hne : k ≠ id := by
    rintro rfl
    exact hid d hd hstage hfinId hwrote
  exact ⟨k, d, (Function.update_of_ne hne ..).trans (hcalls ▸ hd), hstage, hfinId, hwrote⟩

/-- A step keeps the stores aligned if it keeps the registered wallets backed, and the
call it moves has not thrown after registering a wallet. -/
theorem Aligned.put {t : OnboardingState} {id : ℕ} {c : AccountCall} (hs : Aligned s)
    (hcalls : t.calls = s.calls) (hbacked : ∀ finId wallet, t.registry finId = some wallet →
      recorded t.rows finId wallet = true ∨ Awaited (t.put id c) finId wallet)
    (hthrown : ∀ message, c.stage = .thrown message → c.wrote = none) : Aligned (t.put id c) := by
  refine ⟨hbacked, fun k d message hd => ?_⟩
  have hold : ∀ k d, t.calls k = some d → d.stage = .thrown message → d.wrote = none :=
    fun k d hd => hs.thrown k d message (hcalls ▸ hd)
  exact forall_update hold (hthrown message) hd

theorem Aligned.inserted {id : ℕ} {c : AccountCall} {outcome : InsertOutcome} (hs : Aligned s)
    (hc : s.calls id = some c) (ha : AnswersWithBinding cfg s (.inserted id outcome))
    (h : insertAccount cfg s id c outcome = some s') : Aligned s' := by
  -- a wallet that this call awaits is recorded by the answer, any other is backed as before
  have hbacked : ∀ (rows : List Row) (d : AccountCall), (∀ row ∈ s.rows, row ∈ rows) →
      (∀ wallet, c.wrote = some wallet → s.registry c.request.finId = some wallet →
        recorded rows c.request.finId wallet = true) → ∀ finId wallet,
      s.registry finId = some wallet → recorded rows finId wallet = true ∨
        Awaited (({ s with rows := rows } : OnboardingState).put id d) finId wallet := by
    intro rows d hrows hanswer finId wallet hreg
    rcases hs.registered finId wallet hreg with hr | hw
    · exact .inl (recorded_mono hrows hr)
    · by_cases hown : c.request.finId = finId ∧ c.wrote = some wallet
      · obtain ⟨rfl, hwrote⟩ := hown
        exact .inl (hanswer wallet hwrote hreg)
      · refine .inr (hw.put rfl fun d' hd' _ hfinId hwrote => ?_)
        cases hc.symm.trans hd'
        exact hown ⟨hfinId, hwrote⟩
  have hanswer := ha c hc
  cases outcome with
  | throws message =>
    cases h
    have hnone : c.wrote = none := Option.eq_none_iff_forall_not_mem.mpr fun wallet hw =>
      hanswer wallet hw
    exact hs.put rfl (hbacked s.rows _ (fun _ hrow =>
      hrow) fun wallet hw => by rw [hnone] at hw; cases hw) fun _ _ => hnone
  | fails message =>
    cases h
    exact hs.put rfl (hbacked s.rows _ (fun _ hrow => hrow) hanswer) nofun
  | inserts =>
    obtain ⟨answer, hstore, rfl⟩ := Option.map_eq_some_iff.mp h
    exact hs.put rfl (hbacked answer.2 _ (mem_storeInsert hstore) fun wallet hw =>
      hanswer wallet hw answer hstore) nofun

theorem Aligned.step {a : OnboardingAction} (hs : Aligned s) (ha : AnswersWithBinding cfg s a)
    (h : onboardingStep cfg s a = some s') : Aligned s' := by
  cases a with
  | createAccount id request =>
    simp only [onboardingStep] at h
    split at h
    · cases h
    · rename_i hfree
      cases h
      refine hs.put rfl (fun finId wallet hreg =>
        (hs.registered finId wallet hreg).imp_right fun hw => ?_) fun _ _ => rfl
      exact hw.put rfl fun d hd => by rw [hfree] at hd; cases hd
  | credentialAdded id revert =>
    simp only [onboardingStep] at h
    split at h
    · rename_i request address wrote hc
      have hkeep : ∀ (registry : String → Option String) (c : AccountCall) (finId wallet : String),
          Awaited s finId wallet → Awaited (({ s with registry := registry } : OnboardingState).put
            id c) finId wallet :=
        fun registry c finId wallet hw => hw.put rfl fun d hd hstage => by
          cases hc.symm.trans hd
          cases hstage
      cases revert with
      | some message =>
        cases h
        exact hs.put rfl (fun finId wallet hreg =>
          (hs.registered finId wallet hreg).imp_right (hkeep _ _ _ _)) fun _ _ => rfl
      | none =>
        cases h
        refine hs.put rfl (fun finId wallet hreg => ?_) nofun
        dsimp only at hreg
        rw [Function.update_apply] at hreg
        split_ifs at hreg with hfinId
        · cases hreg
          by_cases hold : s.registry request.finId = some address.toLower
          · subst hfinId
            exact (hs.registered _ _ hold).imp_right (hkeep _ _ _ _)
          · exact .inr ⟨id, _, Function.update_self .., rfl, hfinId.symm, if_neg hold⟩
        · exact (hs.registered finId wallet hreg).imp_right (hkeep _ _ _ _)
    · cases h
  | inserted id outcome =>
    simp only [onboardingStep] at h
    split at h
    · rename_i c hc
      split_ifs at h
      exact hs.inserted hc ha h
    · cases h

/-- In every run of `createAccount` calls, with any interleaving, replays and failures,
in which every newly registered wallet's insert is answered with its binding: a wallet
is registered for a finId only if the store records that binding, or the call that has
just registered it awaits the store's answer, and a call that threw has left the
registry as it was. -/
theorem registered_wallets_recorded (cfg : Onboarding) (s₀ s : OnboardingState)
    (hcalls : ∀ id, s₀.calls id = none)
    (h₀ : ∀ finId wallet, s₀.registry finId = some wallet → recorded s₀.rows finId wallet = true)
    (h : ReachUnder (onboardingStep cfg) (AnswersWithBinding cfg) s₀ s) : Aligned s :=
  h.invariant ⟨fun finId wallet hreg => .inl (h₀ finId wallet hreg),
    fun id c _ hc => by rw [hcalls] at hc; cases hc⟩
    fun _ _ _ hs ha hstep => hs.step ha hstep

/-! ### One investor -/

def mappingDesk : Onboarding := ⟨.walletMapping, none,
    fun request row => request.idempotencyKey == row.idempotencyKey⟩

def emptyDesk : OnboardingState := ⟨fun _ => none, [], fun _ => none⟩

def bindAlice (idempotencyKey address : String) : CreateRequest :=
  ⟨idempotencyKey, "bank-us", "asset-1", "alice", some ⟨.walletAccount address⟩⟩

instance (cfg : Onboarding) (s : OnboardingState) (a : OnboardingAction) :
    Decidable (AnswersWithBinding cfg s a) :=
  match a with
  | .createAccount _ _ | .credentialAdded _ _ => .isTrue trivial
  | .inserted _ (.throws _) => inferInstanceAs (Decidable (∀ c ∈ s.calls _, ∀ wallet ∈ c.wrote, False))
  | .inserted _ (.fails _) => inferInstanceAs (Decidable (∀ c ∈ s.calls _, ∀ wallet ∈ c.wrote,
      s.registry c.request.finId = some wallet → recorded s.rows c.request.finId wallet = true))
  | .inserted _ .inserts => inferInstanceAs (Decidable (∀ c ∈ s.calls _, ∀ wallet ∈ c.wrote,
      ∀ answer ∈ storeInsert cfg.replays s.rows c.request c.request.bindInfo,
        s.registry c.request.finId = some wallet → recorded answer.2 c.request.finId wallet = true))

/-- Alice's wallet is registered and recorded. -/
theorem alice_recorded : ∃ s, s.registry "alice" = some "0xa1" ∧ Aligned s := by
  have hrun : (exec (guarded (onboardingStep mappingDesk) (AnswersWithBinding mappingDesk)) emptyDesk
      [.createAccount 0 (bindAlice "ik-1" "0xA1"), .credentialAdded 0 none, .inserted 0 .inserts]).map
      (fun s => s.registry "alice") = some (some "0xa1") := by
    decide +kernel
  obtain ⟨s, hs, hreg⟩ := Option.map_eq_some_iff.mp hrun
  exact ⟨s, hreg, registered_wallets_recorded mappingDesk emptyDesk s (fun _ => rfl) nofun
    (reachUnder_of_exec hs)⟩

/-- A replay registers another wallet, and a failed insert a third, than the store records. -/
theorem registry_runs_ahead : ∃ s message, Reach (onboardingStep mappingDesk) emptyDesk s ∧
    s.registry "alice" = some "0xc3" ∧ s.rows.map Row.account = [.walletAccount "0xA1"] ∧
    s.calls 1 = some ⟨bindAlice "ik-1" "0xB2", .returned (.walletAccount "0xA1"), some "0xb2"⟩ ∧
    s.calls 2 = some ⟨bindAlice "ik-2" "0xC3", .thrown message, some "0xc3"⟩ ∧ ¬ Aligned s := by
  have hrun : (exec (onboardingStep mappingDesk) emptyDesk
      [.createAccount 0 (bindAlice "ik-1" "0xA1"), .credentialAdded 0 none, .inserted 0 .inserts,
        .createAccount 1 (bindAlice "ik-1" "0xB2"), .credentialAdded 1 none, .inserted 1 .inserts,
        .createAccount 2 (bindAlice "ik-2" "0xC3"), .credentialAdded 2 none,
          .inserted 2 (.throws "database down")]).map
      (fun s => (s.registry "alice", s.rows.map Row.account, s.calls 1, s.calls 2)) =
      some (some "0xc3", [.walletAccount "0xA1"],
        some ⟨bindAlice "ik-1" "0xB2", .returned (.walletAccount "0xA1"), some "0xb2"⟩,
        some ⟨bindAlice "ik-2" "0xC3", .thrown "database down", some "0xc3"⟩) := by
    decide +kernel
  obtain ⟨s, hs, hend⟩ := Option.map_eq_some_iff.mp hrun
  simp only [Prod.mk.injEq] at hend
  obtain ⟨hreg, hrows, hreplay, hthrown⟩ := hend
  refine ⟨s, _, reach_of_exec hs, hreg, hrows, hreplay, hthrown, fun hs => ?_⟩
  have hnone := hs.thrown 2 _ _ hthrown rfl
  cases hnone

end FinP2PAdapter.OnChain
