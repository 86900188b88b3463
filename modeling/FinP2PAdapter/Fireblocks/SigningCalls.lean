import FinP2PAdapter.Fireblocks.RawSigner

/-! Signing calls under way at once. A call only ever returns what its own transaction has come to, so it never hands
out a signature that was made for another call. -/

namespace FinP2PAdapter.Fireblocks

open Accounts (truthy)
open Machine

/-! ### Whose transaction it is -/

variable {E : Ethers} {stringify : MessageSignature → String} {s s' : SigningState E} {id : ℕ} {c : SigningCall E}

/-- The transaction is of the job's hash, for the signer's vault. -/
def RawTransaction.AskedFor (tx : RawTransaction) (signer : RawSigner) (job : Job E) : Prop :=
  tx.content = contentOf job.digest.text ∧ tx.vaultAccountId = signer.vaultAccountId ∧ tx.assetId = signer.assetId

/-- The call has returned what its transaction has come to. -/
def ReturnedOwn (stringify : MessageSignature → String) (s : SigningState E) (c : SigningCall E) (text : String) :
    Prop :=
  ∃ job txId tx, c.stage = .ended (some job) (some txId) (.ok text) ∧ s.transactions txId = some tx ∧
    finish stringify job txId tx.info = some (.ok text)

structure CallSound (stringify : MessageSignature → String) (s : SigningState E) (id : ℕ) (c : SigningCall E) :
    Prop where
  signer : ∃ signer, s.signers c.signer = some signer
  asking : c.stage = .asking → c.request = .getAddress
  populating : c.stage = .populating → ∃ tx, c.request = .signTransaction (.inr tx)
  fits : ∀ job, c.stage.job = some job → job.work.Fits (s.populated id) c.request
  transaction : ∀ txId, c.stage.txId = some txId → ∃ signer job tx, s.signers c.signer = some signer ∧
    c.stage.job = some job ∧ s.transactions txId = some tx ∧ tx.AskedFor signer job
  returned : ∀ job txId text, c.stage = .ended job txId (.ok text) →
    c.request = .getAddress ∨ ReturnedOwn stringify s c text

/-- Every transaction is some call's, and no two calls have the same. -/
structure SigningSound (stringify : MessageSignature → String) (s : SigningState E) : Prop where
  calls : ∀ id c, s.calls id = some c → CallSound stringify s id c
  apart : ∀ id id' c c' txId, s.calls id = some c → s.calls id' = some c' → c.stage.txId = some txId →
    c'.stage.txId = some txId → id = id'
  owned : ∀ txId tx, s.transactions txId = some tx → ∃ id c, s.calls id = some c ∧ c.stage.txId = some txId

/-- Signers keep their vaults, and transactions what they are of. A transaction that is final stays as it is. -/
structure SigningGrown (s s' : SigningState E) : Prop where
  signers : ∀ k signer, s.signers k = some signer → ∃ signer', s'.signers k = some signer' ∧
    signer'.vaultAccountId = signer.vaultAccountId ∧ signer'.assetId = signer.assetId
  transactions : ∀ txId tx, s.transactions txId = some tx → ∃ tx', s'.transactions txId = some tx' ∧
    (∀ (signer : RawSigner) (job : Job E), tx.AskedFor signer job → tx'.AskedFor signer job) ∧
    (tx.info.isFinal = true → tx' = tx)

theorem SigningGrown.refl (s : SigningState E) : SigningGrown s s :=
  ⟨fun _ signer h => ⟨signer, h, rfl, rfl⟩, fun _ tx h => ⟨tx, h, fun _ _ => id, fun _ => rfl⟩⟩

theorem SigningGrown.put (h : SigningGrown s s') : SigningGrown s (s'.put id c) := ⟨h.signers, h.transactions⟩

theorem RawTransaction.AskedFor.signer {tx : RawTransaction} {signer signer' : RawSigner} {job : Job E}
    (h : tx.AskedFor signer job) (hvault : signer'.vaultAccountId = signer.vaultAccountId)
    (hasset : signer'.assetId = signer.assetId) : tx.AskedFor signer' job :=
  ⟨h.1, h.2.1.trans hvault.symm, h.2.2.trans hasset.symm⟩

theorem isFinal_of_finish {job : Job E} {txId : String} {tx : TransactionInfo} {outcome : Except String String}
    (h : finish stringify job txId tx = some outcome) : tx.isFinal = true := by
  unfold finish pollTransaction at h
  by_cases hfinal : tx.status ∈ terminalStatuses
  · simpa [TransactionInfo.isFinal] using hfinal
  · rw [if_neg hfinal] at h
    cases h

theorem CallSound.grown (h : CallSound stringify s id c) (hgrown : SigningGrown s s')
    (hpopulated : c.stage.job ≠ none → s'.populated id = s.populated id) : CallSound stringify s' id c where
  signer := by
    obtain ⟨signer, hsigner⟩ := h.signer
    obtain ⟨signer', hsigner', -⟩ := hgrown.signers _ _ hsigner
    exact ⟨signer', hsigner'⟩
  asking := h.asking
  populating := h.populating
  fits := by
    intro job hjob
    rw [hpopulated (by rw [hjob]; simp)]
    exact h.fits job hjob
  transaction := by
    intro txId htxId
    obtain ⟨signer, job, tx, hsigner, hjob, htx, hasked⟩ := h.transaction txId htxId
    obtain ⟨signer', hsigner', hvault, hasset⟩ := hgrown.signers _ _ hsigner
    obtain ⟨tx', htx', hkept, -⟩ := hgrown.transactions _ _ htx
    exact ⟨signer', job, tx', hsigner', hjob, htx', (hkept _ _ hasked).signer hvault hasset⟩
  returned := by
    intro job txId text hstage
    refine (h.returned job txId text hstage).imp_right ?_
    rintro ⟨job', txId', tx, hended, htx, hfinish⟩
    obtain ⟨tx', htx', -, hsame⟩ := hgrown.transactions _ _ htx
    rw [hsame (isFinal_of_finish hfinish)] at htx'
    exact ⟨job', txId', tx, hended, htx', hfinish⟩

/-! ### One step -/

theorem SigningSound.world (hs : SigningSound stringify s) (hgrown : SigningGrown s s') (hcalls : s'.calls = s.calls)
    (hpopulated : ∀ id c, s.calls id = some c → c.stage.job ≠ none → s'.populated id = s.populated id)
    (hids : ∀ txId tx, s'.transactions txId = some tx → (s.transactions txId).isSome = true) :
    SigningSound stringify s' where
  calls := by
    intro id c hc
    rw [hcalls] at hc
    exact (hs.calls id c hc).grown hgrown (hpopulated id c hc)
  apart := by
    rw [hcalls]
    exact hs.apart
  owned := by
    intro txId tx htx
    obtain ⟨tx₀, htx₀⟩ := Option.isSome_iff_exists.mp (hids txId tx htx)
    rw [hcalls]
    exact hs.owned txId tx₀ htx₀

/-- A call goes on. A transaction that it gets is new, and a transaction that is new is one it gets. -/
theorem SigningSound.call (hs : SigningSound stringify s) (hgrown : SigningGrown s s')
    (hcalls : s'.calls = Function.update s.calls id (some c)) (hpopulated : s'.populated = s.populated)
    (hsound : CallSound stringify s' id c)
    (hkept : ∀ before txId, s.calls id = some before → before.stage.txId = some txId → c.stage.txId = some txId)
    (hgot : ∀ txId, c.stage.txId = some txId → s.transactions txId = none ∨
      ∃ before, s.calls id = some before ∧ before.stage.txId = some txId)
    (hnew : ∀ txId tx, s'.transactions txId = some tx → (s.transactions txId).isSome = true ∨
      c.stage.txId = some txId) : SigningSound stringify s' := by
  -- no other call has the transaction of this one
  have hother : ∀ id' c' txId, id' ≠ id → s.calls id' = some c' → c'.stage.txId = some txId →
      c.stage.txId ≠ some txId := by
    intro id' c' txId hne hc' htxId' htxId
    rcases hgot txId htxId with habsent | ⟨before, hbefore, hbeforeId⟩
    · obtain ⟨-, -, tx, -, -, htx, -⟩ := (hs.calls id' c' hc').transaction txId htxId'
      rw [habsent] at htx
      cases htx
    · exact hne (hs.apart id' id c' before txId hc' hbefore htxId' hbeforeId)
  refine ⟨fun id' c' hc' => ?_, fun k k' e e' txId he he' htxId htxId' => ?_, fun txId tx htx => ?_⟩
  · rw [hcalls] at hc'
    exact forall_update (P := fun id' c' => CallSound stringify s' id' c')
      (fun k e he => (hs.calls k e he).grown hgrown fun _ => by rw [hpopulated]) hsound hc'
  · rw [hcalls, Function.update_apply] at he he'
    split_ifs at he he' with hk hk' hk'
    · rw [hk, hk']
    · cases he
      exact absurd htxId (hother k' e' txId hk' he' htxId')
    · cases he'
      exact absurd htxId' (hother k e txId hk he htxId)
    · exact hs.apart k k' e e' txId he he' htxId htxId'
  · rw [hcalls]
    rcases hnew txId tx htx with hold | hown
    · obtain ⟨tx₀, htx₀⟩ := Option.isSome_iff_exists.mp hold
      obtain ⟨k, e, he, hke⟩ := hs.owned txId tx₀ htx₀
      by_cases hk : k = id
      · rw [hk] at he
        exact ⟨id, c, by rw [Function.update_self], hkept e txId he hke⟩
      · exact ⟨k, e, by rw [Function.update_of_ne hk, he], hke⟩
    · exact ⟨id, c, by rw [Function.update_self], hown⟩

variable {k : ℕ} {request : SignerRequest E} {signer : RawSigner} {job : Job E} {txId message : String}

theorem rawSign_cases (work : Work E) : (∃ message, rawSign work = .ended none none (.error message)) ∨
    ∃ job, rawSign work = .creating job ∧ job.work = work := by
  unfold rawSign
  split
  · exact .inl ⟨_, rfl⟩
  · exact .inr ⟨_, rfl, rfl⟩

/-- A call without a job has made nothing yet. -/
theorem CallSound.jobless {outcome : Except String String} (hsigner : s.signers k = some signer)
    (hreturned : ∀ text, outcome = .ok text → request = .getAddress) :
    CallSound stringify s id ⟨k, request, .ended none none outcome⟩ := by
  refine ⟨⟨signer, hsigner⟩, nofun, nofun, nofun, nofun, ?_⟩
  rintro job txId text ⟨⟩
  exact .inl (hreturned text rfl)

theorem CallSound.creating (hsigner : s.signers k = some signer) (hfits : job.work.Fits (s.populated id) request) :
    CallSound stringify s id ⟨k, request, .creating job⟩ := by
  refine ⟨⟨signer, hsigner⟩, nofun, nofun, ?_, nofun, nofun⟩
  rintro job' ⟨⟩
  exact hfits

theorem CallSound.rawSign (work : Work E) (hsigner : s.signers k = some signer)
    (hfits : work.Fits (s.populated id) request) :
    CallSound stringify s id ⟨k, request, Fireblocks.rawSign work⟩ := by
  rcases rawSign_cases work with ⟨message, hstage⟩ | ⟨job, hstage, rfl⟩
  · rw [hstage]
    exact .jobless hsigner nofun
  · rw [hstage]
    exact .creating hsigner hfits

/-- A request starts soundly, and with no transaction. -/
theorem CallSound.firstStage (hsigner : s.signers k = some signer) :
    CallSound stringify s id ⟨k, request, firstStage signer request⟩ := by
  cases request with
  | getAddress =>
    simp only [Fireblocks.firstStage]
    cases truthy signer.cachedAddress with
    | some address => exact .jobless hsigner fun _ _ => rfl
    | none => exact ⟨⟨signer, hsigner⟩, fun _ => rfl, nofun, nofun, nofun, nofun⟩
  | signTransaction tx =>
    cases tx with
    | inl unsignedTx => exact .rawSign (.transaction unsignedTx) hsigner rfl
    | inr tx => exact ⟨⟨signer, hsigner⟩, nofun, fun _ => ⟨tx, rfl⟩, nofun, nofun, nofun⟩
  | signMessage text => exact .rawSign (.message text) hsigner rfl
  | signTypedData data => exact .rawSign (.typedData data) hsigner rfl

theorem txId_rawSign (work : Work E) : (rawSign work).txId = none := by
  rcases rawSign_cases work with ⟨message, hstage⟩ | ⟨job, hstage, -⟩ <;> rw [hstage] <;> rfl

theorem txId_firstStage : (firstStage signer request).txId = none := by
  cases request with
  | getAddress =>
    simp only [firstStage]
    cases truthy signer.cachedAddress <;> rfl
  | signTransaction tx =>
    cases tx with
    | inl unsignedTx => exact txId_rawSign (.transaction unsignedTx)
    | inr tx => rfl
  | signMessage text => exact txId_rawSign (.message text)
  | signTypedData data => exact txId_rawSign (.typedData data)

/-- A call that had no transaction goes on without one. -/
theorem SigningSound.put_without (hs : SigningSound stringify s)
    (hbefore : ∀ before, s.calls id = some before → before.stage.txId = none) (htxId : c.stage.txId = none)
    (hsound : CallSound stringify s id c) : SigningSound stringify (s.put id c) := by
  have hgrown : SigningGrown s (s.put id c) := (SigningGrown.refl s).put
  refine hs.call hgrown rfl rfl (hsound.grown hgrown fun _ => rfl) ?_ ?_
    fun txId tx htx => .inl (Option.isSome_iff_exists.mpr ⟨tx, htx⟩)
  · intro before txId hb hbId
    rw [hbefore before hb] at hbId
    cases hbId
  · intro txId h
    rw [htxId] at h
    cases h

theorem grown_putTransaction (habsent : s.transactions txId = none) (tx : RawTransaction) :
    SigningGrown s (s.putTransaction txId tx) := by
  refine ⟨fun _ signer h => ⟨signer, h, rfl, rfl⟩, fun txId' tx' htx' => ⟨tx', ?_, fun _ _ => id, fun _ => rfl⟩⟩
  show Function.update s.transactions txId (some tx) txId' = some tx'
  rw [Function.update_of_ne, htx']
  rintro rfl
  rw [habsent] at htx'
  cases htx'

/-- A call is given a transaction that Fireblocks has made for it, and goes on with it or fails. -/
theorem SigningSound.put_created {stage : SigningStage E} (hs : SigningSound stringify s)
    (hc : s.calls id = some ⟨k, request, .creating job⟩) (hsigner : s.signers k = some signer)
    (habsent : s.transactions txId = none) (hjob : stage.job = some job) (htxId : stage.txId = some txId)
    (hasking : stage ≠ .asking) (hpopulating : stage ≠ .populating)
    (hfails : ∀ job txId text, stage ≠ .ended job txId (.ok text)) :
    SigningSound stringify ((s.putTransaction txId (rawTransaction signer job)).put id ⟨k, request, stage⟩) := by
  have hgrown : SigningGrown s ((s.putTransaction txId (rawTransaction signer job)).put id ⟨k, request, stage⟩) :=
    (grown_putTransaction habsent _).put
  have hself : ((s.putTransaction txId (rawTransaction signer job)).put id ⟨k, request, stage⟩).transactions txId =
      some (rawTransaction signer job) := Function.update_self ..
  refine hs.call hgrown rfl rfl ⟨⟨signer, hsigner⟩, fun h => absurd h hasking, fun h => absurd h hpopulating, ?_, ?_, ?_⟩
    ?_ ?_ ?_
  · intro job' hjob'
    rw [hjob] at hjob'
    cases hjob'
    exact (hs.calls id _ hc).fits job rfl
  · intro txId' htxId'
    rw [htxId] at htxId'
    cases htxId'
    exact ⟨signer, job, _, hsigner, hjob, hself, rfl, rfl, rfl⟩
  · intro job' txId' text hstage
    exact absurd hstage (hfails job' txId' text)
  · intro before txId' hb hbId
    rw [hc] at hb
    cases hb
    cases hbId
  · intro txId' htxId'
    rw [htxId] at htxId'
    cases htxId'
    exact .inl habsent
  · intro txId' tx htx
    by_cases hid : txId' = txId
    · rw [hid]
      exact .inr htxId
    · have hold : s.transactions txId' = some tx := by
        rw [← htx]
        exact (Function.update_of_ne hid _ _).symm
      exact .inl (Option.isSome_iff_exists.mpr ⟨tx, hold⟩)

/-- A call ends with what it has made of its transaction, or with a failure. -/
theorem SigningSound.put_ended {outcome : Except String String} (hs : SigningSound stringify s)
    (hc : s.calls id = some ⟨k, request, .polling job txId⟩)
    (hown : ∀ text, outcome = .ok text → ∃ tx, s.transactions txId = some tx ∧
      finish stringify job txId tx.info = some (.ok text)) :
    SigningSound stringify (s.put id ⟨k, request, .ended (some job) (some txId) outcome⟩) := by
  have hold := hs.calls id _ hc
  have hgrown : SigningGrown s (s.put id ⟨k, request, .ended (some job) (some txId) outcome⟩) :=
    (SigningGrown.refl s).put
  refine hs.call hgrown rfl rfl
    (CallSound.grown ⟨hold.signer, nofun, nofun, hold.fits, hold.transaction, ?_⟩ hgrown fun _ => rfl) ?_ ?_
    fun txId tx htx => .inl (Option.isSome_iff_exists.mpr ⟨tx, htx⟩)
  · rintro job' txId' text ⟨⟩
    obtain ⟨tx, htx, hfinish⟩ := hown text rfl
    exact .inr ⟨job, txId, tx, rfl, htx, hfinish⟩
  · intro before txId' hb hbId
    rw [hc] at hb
    cases hb
    exact hbId
  · intro txId' htxId'
    exact .inr ⟨_, hc, htxId'⟩

theorem grown_putSigner (hsame : ∀ old, s.signers k = some old →
    signer.vaultAccountId = old.vaultAccountId ∧ signer.assetId = old.assetId) :
    SigningGrown s (s.putSigner k signer) := by
  refine ⟨fun k' signer' hsigner' => ?_, fun _ tx h => ⟨tx, h, fun _ _ => id, fun _ => rfl⟩⟩
  by_cases hk : k' = k
  · rw [hk] at hsigner' ⊢
    exact ⟨signer, Function.update_self .., hsame signer' hsigner'⟩
  · exact ⟨signer', by rw [← hsigner']; exact Function.update_of_ne hk _ _, rfl, rfl⟩

/-- An address is remembered and returned. -/
theorem SigningSound.put_addressed (hs : SigningSound stringify s) (hc : s.calls id = some ⟨k, request, .asking⟩)
    (hsigner : s.signers k = some signer) (address : String) :
    SigningSound stringify ((s.putSigner k { signer with cachedAddress := some address }).put id
      ⟨k, request, .ended none none (.ok address)⟩) := by
  have hgrown : SigningGrown s (s.putSigner k { signer with cachedAddress := some address }) := by
    refine grown_putSigner fun old hold => ?_
    rw [hsigner] at hold
    cases hold
    exact ⟨rfl, rfl⟩
  have hworld : SigningSound stringify (s.putSigner k { signer with cachedAddress := some address }) :=
    hs.world hgrown rfl (fun _ _ _ _ => rfl) fun txId tx htx => Option.isSome_iff_exists.mpr ⟨tx, htx⟩
  refine hworld.put_without ?_ rfl (.jobless (Function.update_self ..) fun _ _ => (hs.calls id _ hc).asking rfl)
  intro before hbefore
  have hsame : s.calls id = some before := hbefore
  rw [hc] at hsame
  cases hsame
  rfl

/-- A call that populates has signed nothing yet. -/
theorem SigningSound.answer (hs : SigningSound stringify s) (hc : s.calls id = some ⟨k, request, .populating⟩)
    (fields : E.Fields) : SigningSound stringify (s.answer id fields) := by
  refine hs.world ⟨(SigningGrown.refl s).signers, (SigningGrown.refl s).transactions⟩ rfl ?_
    fun txId tx htx => Option.isSome_iff_exists.mpr ⟨tx, htx⟩
  intro id' c' hc' hjob
  refine Function.update_of_ne ?_ _ _
  rintro rfl
  rw [hc] at hc'
  cases hc'
  exact hjob rfl

theorem grown_progressed {tx : RawTransaction} (htx : s.transactions txId = some tx)
    (hfinal : tx.info.isFinal = false) (info : TransactionInfo) :
    SigningGrown s (s.putTransaction txId { tx with info := info }) := by
  refine ⟨fun _ signer h => ⟨signer, h, rfl, rfl⟩, fun txId' tx' htx' => ?_⟩
  by_cases hid : txId' = txId
  · rw [hid, htx] at htx'
    cases htx'
    rw [hid]
    refine ⟨{ tx with info := info }, Function.update_self .., fun _ _ => id, fun hf => ?_⟩
    rw [hfinal] at hf
    cases hf
  · exact ⟨tx', (Function.update_of_ne hid _ _).trans htx', fun _ _ => id, fun _ => rfl⟩

/-- What a step can do. -/
inductive SigningMove (stringify : MessageSignature → String) (s : SigningState E) :
    SigningAction E → SigningState E → Prop where
  | joined {a : SigningAction E} {k : ℕ} {vaultAccountId : String} {assetId : Option String}
    (hfree : s.signers k = none) : SigningMove stringify s a (s.putSigner k (.construct vaultAccountId assetId))
  | began {id k : ℕ} {request : SignerRequest E} {signer : RawSigner} (hfree : s.calls id = none)
    (hsigner : s.signers k = some signer) :
    SigningMove stringify s (.called id k request) (s.put id ⟨k, request, firstStage signer request⟩)
  | failed {a : SigningAction E} {id : ℕ} {c : SigningCall E} {message : String} (hc : s.calls id = some c)
    (hjob : c.stage.job = none) (htxId : c.stage.txId = none) :
    SigningMove stringify s a (s.put id ⟨c.signer, c.request, .ended none none (.error message)⟩)
  | learnt {id k : ℕ} {request : SignerRequest E} {signer : RawSigner} {address : String} {rest : List String}
    (hc : s.calls id = some ⟨k, request, .asking⟩) (hsigner : s.signers k = some signer) :
    SigningMove stringify s (.addressed id (.ok (address :: rest)))
      ((s.putSigner k { signer with cachedAddress := some address }).put id
        ⟨k, request, .ended none none (.ok address)⟩)
  | populated {id k : ℕ} {request : SignerRequest E} {fields : E.Fields} {unsignedTx : E.Transaction}
    (hc : s.calls id = some ⟨k, request, .populating⟩) (hfields : E.transactionFrom fields = .ok unsignedTx) :
    SigningMove stringify s (.populated id (.ok fields))
      ((s.answer id fields).put id ⟨k, request, rawSign (.transaction unsignedTx)⟩)
  | unpopulated {id k : ℕ} {request : SignerRequest E} {fields : E.Fields} {message : String}
    (hc : s.calls id = some ⟨k, request, .populating⟩) (hfields : E.transactionFrom fields = .error message) :
    SigningMove stringify s (.populated id (.ok fields))
      ((s.answer id fields).put id ⟨k, request, .ended none none (.error message)⟩)
  | made {id k : ℕ} {request : SignerRequest E} {signer : RawSigner} {job : Job E} {txId : String}
    (hc : s.calls id = some ⟨k, request, .creating job⟩) (hsigner : s.signers k = some signer)
    (habsent : s.transactions txId = none) : SigningMove stringify s (.created id txId)
      ((s.putTransaction txId (rawTransaction signer job)).put id ⟨k, request, .polling job txId⟩)
  | lost {id k : ℕ} {request : SignerRequest E} {signer : RawSigner} {job : Job E} {txId message : String}
    (hc : s.calls id = some ⟨k, request, .creating job⟩) (hsigner : s.signers k = some signer)
    (habsent : s.transactions txId = none) : SigningMove stringify s (.creationFailed id (some txId) message)
      ((s.putTransaction txId (rawTransaction signer job)).put id
        ⟨k, request, .ended (some job) (some txId) (.error message)⟩)
  | refused {id k : ℕ} {request : SignerRequest E} {job : Job E} {message : String}
    (hc : s.calls id = some ⟨k, request, .creating job⟩) : SigningMove stringify s (.creationFailed id none message)
      (s.put id ⟨k, request, .ended (some job) none (.error message)⟩)
  | progressed {txId : String} {tx : RawTransaction} {info : TransactionInfo} (htx : s.transactions txId = some tx)
    (hfinal : tx.info.isFinal = false) :
    SigningMove stringify s (.progressed txId info) (s.putTransaction txId { tx with info := info })
  | unanswered {id k : ℕ} {request : SignerRequest E} {job : Job E} {txId message : String}
    (hc : s.calls id = some ⟨k, request, .polling job txId⟩) : SigningMove stringify s (.polled id (some message))
      (s.put id ⟨k, request, .ended (some job) (some txId) (.error message)⟩)
  | finished {id k : ℕ} {request : SignerRequest E} {job : Job E} {txId : String} {tx : RawTransaction}
    {outcome : Except String String} (hc : s.calls id = some ⟨k, request, .polling job txId⟩)
    (htx : s.transactions txId = some tx) (hfinish : finish stringify job txId tx.info = some outcome) :
    SigningMove stringify s (.polled id none) (s.put id ⟨k, request, .ended (some job) (some txId) outcome⟩)
  | waited {a : SigningAction E} : SigningMove stringify s a s

theorem moves_of_constructed {k : ℕ} {vaultAccountId : String} {assetId : Option String}
    (h : signingStep stringify s (.constructed k vaultAccountId assetId) = some s') :
    SigningMove stringify s (.constructed k vaultAccountId assetId) s' := by
  unfold signingStep at h
  dsimp only at h
  split at h
  · cases h
    exact .joined ‹_›
  · cases h

theorem moves_of_connected {k k' : ℕ} (h : signingStep stringify s (.connected k k') = some s') :
    SigningMove stringify s (.connected k k') s' := by
  unfold signingStep at h
  dsimp only at h
  split at h
  · rename_i signer hsigner hfree
    cases h
    exact .joined hfree
  · cases h

theorem moves_of_called {id k : ℕ} {request : SignerRequest E}
    (h : signingStep stringify s (.called id k request) = some s') :
    SigningMove stringify s (.called id k request) s' := by
  unfold signingStep at h
  dsimp only at h
  split at h
  · rename_i signer hfree hsigner
    cases h
    exact .began hfree hsigner
  · cases h

theorem moves_of_addressed {id : ℕ} {answer : Except String (List String)}
    (h : signingStep stringify s (.addressed id answer) = some s') :
    SigningMove stringify s (.addressed id answer) s' := by
  unfold signingStep at h
  dsimp only at h
  split at h
  · rename_i k request hc
    obtain ⟨signer, hsigner, h⟩ := Option.map_eq_some_iff.mp h
    split at h
    · cases h
      exact .failed hc rfl rfl
    · cases h
      exact .failed hc rfl rfl
    · cases h
      exact .learnt hc hsigner
  · cases h

theorem moves_of_populated {id : ℕ} {answer : Except String E.Fields}
    (h : signingStep stringify s (.populated id answer) = some s') :
    SigningMove stringify s (.populated id answer) s' := by
  unfold signingStep at h
  dsimp only at h
  split at h
  · rename_i k request hc
    cases answer with
    | error message =>
      cases h
      exact .failed hc rfl rfl
    | ok fields =>
      dsimp only at h
      split at h
      · rename_i message hfields
        cases h
        exact .unpopulated hc hfields
      · rename_i unsignedTx hfields
        cases h
        exact .populated hc hfields
  · cases h

theorem moves_of_created {id : ℕ} {txId : String}
    (h : signingStep stringify s (.created id txId) = some s') :
    SigningMove stringify s (.created id txId) s' := by
  unfold signingStep at h
  dsimp only at h
  split at h
  · rename_i k request job hc habsent
    obtain ⟨signer, hsigner, h⟩ := Option.map_eq_some_iff.mp h
    cases h
    exact .made hc hsigner habsent
  · cases h

theorem moves_of_creationFailed {id : ℕ} {left : Option String} {message : String}
    (h : signingStep stringify s (.creationFailed id left message) = some s') :
    SigningMove stringify s (.creationFailed id left message) s' := by
  unfold signingStep at h
  dsimp only at h
  split at h
  · rename_i k request job hc
    cases left with
    | none =>
      cases h
      exact .refused hc
    | some txId =>
      dsimp only at h
      split at h
      · rename_i signer hsigner habsent
        cases h
        exact .lost hc hsigner habsent
      · cases h
  · cases h

theorem moves_of_progressed {txId : String} {info : TransactionInfo}
    (h : signingStep stringify s (.progressed txId info) = some s') :
    SigningMove stringify s (.progressed txId info) s' := by
  unfold signingStep at h
  dsimp only at h
  split at h
  · rename_i tx htx
    split_ifs at h with hfinal
    cases h
    exact .progressed htx (Bool.not_eq_true _ ▸ hfinal)
  · cases h

theorem moves_of_polled {id : ℕ} {failure : Option String}
    (h : signingStep stringify s (.polled id failure) = some s') :
    SigningMove stringify s (.polled id failure) s' := by
  unfold signingStep at h
  dsimp only at h
  split at h
  · rename_i k request job txId hc
    cases failure with
    | some message =>
      cases h
      exact .unanswered hc
    | none =>
      obtain ⟨tx, htx, h⟩ := Option.map_eq_some_iff.mp h
      split at h
      · rename_i outcome hfinish
        cases h
        exact .finished hc htx hfinish
      · cases h
        exact .waited
  · cases h

theorem signingStep_moves {a : SigningAction E} (h : signingStep stringify s a = some s') :
    SigningMove stringify s a s' := by
  cases a with
  | constructed k vaultAccountId assetId => exact moves_of_constructed h
  | connected k k' => exact moves_of_connected h
  | called id k request => exact moves_of_called h
  | addressed id answer => exact moves_of_addressed h
  | populated id answer => exact moves_of_populated h
  | created id txId => exact moves_of_created h
  | creationFailed id left message => exact moves_of_creationFailed h
  | progressed txId info => exact moves_of_progressed h
  | polled id failure => exact moves_of_polled h

theorem SigningSound.step {a : SigningAction E} (hs : SigningSound stringify s)
    (h : signingStep stringify s a = some s') : SigningSound stringify s' := by
  have hids : ∀ txId tx, s.transactions txId = some tx → (s.transactions txId).isSome = true :=
    fun txId tx htx => Option.isSome_iff_exists.mpr ⟨tx, htx⟩
  -- a call whose stage has no transaction
  have hwithout : ∀ {id : ℕ} {c : SigningCall E}, s.calls id = some c → c.stage.txId = none →
      ∀ before, s.calls id = some before → before.stage.txId = none := by
    intro id c hc hnone before hbefore
    rw [hc] at hbefore
    cases hbefore
    exact hnone
  cases signingStep_moves h with
  | joined hfree =>
    refine hs.world (grown_putSigner fun old hold => ?_) rfl (fun _ _ _ _ => rfl) hids
    rw [hfree] at hold
    cases hold
  | began hfree hsigner =>
    refine hs.put_without (fun before hbefore => ?_) txId_firstStage (.firstStage hsigner)
    rw [hfree] at hbefore
    cases hbefore
  | failed hc hjob htxId =>
    obtain ⟨signer, hsigner⟩ := (hs.calls _ _ hc).signer
    exact hs.put_without (hwithout hc htxId) rfl (.jobless hsigner nofun)
  | learnt hc hsigner => exact hs.put_addressed hc hsigner _
  | populated hc hfields =>
    obtain ⟨signer, hsigner⟩ := (hs.calls _ _ hc).signer
    obtain ⟨tx, rfl⟩ := (hs.calls _ _ hc).populating rfl
    exact (hs.answer hc _).put_without (hwithout hc rfl) (txId_rawSign _)
      (.rawSign _ hsigner ⟨_, Function.update_self .., hfields⟩)
  | unpopulated hc hfields =>
    obtain ⟨signer, hsigner⟩ := (hs.calls _ _ hc).signer
    exact (hs.answer hc _).put_without (hwithout hc rfl) rfl (.jobless hsigner nofun)
  | made hc hsigner habsent => exact hs.put_created hc hsigner habsent rfl rfl nofun nofun nofun
  | lost hc hsigner habsent => exact hs.put_created hc hsigner habsent rfl rfl nofun nofun nofun
  | refused hc =>
    have hold := hs.calls _ _ hc
    exact hs.put_without (hwithout hc rfl) rfl ⟨hold.signer, nofun, nofun, hold.fits, nofun, nofun⟩
  | progressed htx hfinal =>
    rename_i txId tx info
    refine hs.world (grown_progressed htx hfinal info) rfl (fun _ _ _ _ => rfl) fun txId' tx' htx' => ?_
    by_cases hid : txId' = txId
    · rw [hid, htx]
      rfl
    · exact hids txId' tx' ((Function.update_of_ne hid _ _).symm.trans htx')
  | unanswered hc => exact hs.put_ended hc nofun
  | finished hc htx hfinish =>
    refine hs.put_ended hc fun text htext => ⟨_, htx, ?_⟩
    rw [hfinish, htext]
  | waited => exact hs

theorem signingSound_init : SigningSound stringify (.init : SigningState E) where
  calls := by
    intro id c hc
    cases hc
  apart := by
    intro id id' c c' txId hc
    cases hc
  owned := by
    intro txId tx htx
    cases htx

theorem signing_sound (hrun : Reach (signingStep stringify) .init s) : SigningSound stringify s :=
  hrun.invariant signingSound_init fun _ _ _ hs _ h => hs.step h

theorem finish_ok {tx : TransactionInfo} {text : String} (h : finish stringify job txId tx = some (.ok text)) :
    tx.status = .completed ∧ ∃ signature, readSignature stringify txId tx = .ok signature ∧
      job.work.seal signature = .ok text := by
  unfold finish pollTransaction at h
  split_ifs at h with hfinal hcompleted
  · cases h
  · refine ⟨not_not.mp hcompleted, ?_⟩
    simp only [Option.map_some, Option.some.injEq] at h
    have h : (readSignature stringify txId tx).bind job.work.seal = .ok text := h
    cases hread : readSignature stringify txId tx with
    | error message =>
      rw [hread] at h
      cases h
    | ok signature =>
      rw [hread] at h
      exact ⟨signature, rfl, h⟩
  · cases h

theorem isSome_finish (stringify : MessageSignature → String) (job : Job E) (txId : String) (tx : TransactionInfo) :
    (finish stringify job txId tx).isSome = tx.isFinal := by
  unfold finish pollTransaction TransactionInfo.isFinal
  split_ifs with hfinal hcompleted <;> simp [hfinal]

/-- A call that waits for its transaction ends at its next answer if the transaction is final, and goes on waiting
if it is not. -/
theorem polled_ends (hs : SigningSound stringify s) (hc : s.calls id = some ⟨k, request, .polling job txId⟩) :
    ∃ tx s', s.transactions txId = some tx ∧ signingStep stringify s (.polled id none) = some s' ∧
      (tx.info.isFinal = true → ∃ outcome, finish stringify job txId tx.info = some outcome ∧
        s'.calls id = some ⟨k, request, .ended (some job) (some txId) outcome⟩) ∧
      (tx.info.isFinal = false → s' = s) := by
  obtain ⟨-, -, tx, -, -, htx, -⟩ := (hs.calls id _ hc).transaction txId rfl
  have hsome := isSome_finish stringify job txId tx.info
  cases hfinish : finish stringify job txId tx.info with
  | some outcome =>
    rw [hfinish] at hsome
    refine ⟨tx, s.put id ⟨k, request, .ended (some job) (some txId) outcome⟩, htx, ?_, fun _ => ?_, fun h => ?_⟩
    · simp only [signingStep, hc, htx, Option.map_some, hfinish]
    · exact ⟨outcome, hfinish, Function.update_self ..⟩
    · rw [h] at hsome
      cases hsome
  | none =>
    rw [hfinish] at hsome
    refine ⟨tx, s, htx, ?_, fun h => ?_, fun _ => rfl⟩
    · simp only [signingStep, hc, htx, Option.map_some, hfinish]
    · rw [h] at hsome
      cases hsome

/-- The call has had the transaction made, of the hash of what it was asked to sign and for its signer's vault. -/
def MadeFor (s : SigningState E) (tx : RawTransaction) (txId : String) (id : ℕ) (c : SigningCall E) : Prop :=
  c.stage.txId = some txId ∧ ∃ signer job, s.signers c.signer = some signer ∧ c.stage.job = some job ∧
    job.work.Fits (s.populated id) c.request ∧ tx.AskedFor signer job

theorem made_for (hs : SigningSound stringify s) {tx : RawTransaction} (htx : s.transactions txId = some tx)
    (hc : s.calls id = some c) (htxId : c.stage.txId = some txId) : MadeFor s tx txId id c := by
  obtain ⟨signer, job, tx', hsigner, hjob, htx', hasked⟩ := (hs.calls id c hc).transaction txId htxId
  rw [htx] at htx'
  cases htx'
  exact ⟨htxId, signer, job, hsigner, hjob, (hs.calls id c hc).fits job hjob, hasked⟩

/-- However the calls of the signers and Fireblocks's work are interleaved, Fireblocks is asked for nothing but the
hashes that calls were to sign, once for each. A signing call that returns does so when its own transaction has
completed, with that transaction's signature; a call that waits ends at the first answer that says the transaction
is final. -/
theorem raw_requests_apart (hrun : Reach (signingStep stringify) .init s) :
    (∀ txId tx, s.transactions txId = some tx → ∃! id, ∃ c, s.calls id = some c ∧ MadeFor s tx txId id c) ∧
    (∀ id c job txId text, s.calls id = some c → c.stage = .ended job txId (.ok text) → c.request ≠ .getAddress →
      ∃ job txId tx signature, c.stage = .ended (some job) (some txId) (.ok text) ∧
        s.transactions txId = some tx ∧ MadeFor s tx txId id c ∧ tx.info.status = .completed ∧
        readSignature stringify txId tx.info = .ok signature ∧ job.work.seal signature = .ok text) ∧
    (∀ id k request job txId, s.calls id = some ⟨k, request, .polling job txId⟩ →
      ∃ tx s', s.transactions txId = some tx ∧ signingStep stringify s (.polled id none) = some s' ∧
        (tx.info.isFinal = true → ∃ outcome, finish stringify job txId tx.info = some outcome ∧
          s'.calls id = some ⟨k, request, .ended (some job) (some txId) outcome⟩) ∧
        (tx.info.isFinal = false → s' = s)) := by
  have hs := signing_sound hrun
  refine ⟨fun txId tx htx => ?_, fun id c job txId text hc hstage hrequest => ?_,
    fun id k request job txId hc => polled_ends hs hc⟩
  · obtain ⟨id, c, hc, htxId⟩ := hs.owned txId tx htx
    refine ⟨id, ⟨c, hc, made_for hs htx hc htxId⟩, ?_⟩
    rintro id' ⟨c', hc', htxId', -⟩
    exact hs.apart id' id c' c txId hc' hc htxId' htxId
  · rcases (hs.calls id c hc).returned job txId text hstage with haddress | ⟨job', txId', tx, hended, htx, hfinish⟩
    · exact absurd haddress hrequest
    · obtain ⟨hcompleted, signature, hread, hseal⟩ := finish_ok hfinish
      have htxId : c.stage.txId = some txId' := by rw [hended]; rfl
      exact ⟨job', txId', tx, signature, hended, htx, made_for hs htx hc htxId, hcompleted, hread, hseal⟩

/-- Two messages as ethers hashes and writes them. -/
abbrev greeter : Ethers where
  Transaction := Empty
  Request := Empty
  Fields := Empty
  Message := String
  TypedData := Empty
  transactionFrom := nofun
  unsignedHash := nofun
  hashMessage := fun text =>
    if text = "hello" then .ofContent "50b2c43fd39106bafbba0da34fc430e1f91e3c96ea2acee2bc34119f92b37750"
    else .ofContent "d6b2abf956a7e05dcb50e1ab4cd248820ec013c4237f14d59049b0fe179e244e"
  hashTypedData := nofun
  serialized := nofun
  signatureSerialized := fun signature =>
    .ok (signature.r ++ contentOf signature.s ++ if signature.v = 27 then "1b" else "1c")

def helloSignature : MessageSignature where
  r := some "e5ddc160e4c8f92de507c7db9b982d4f9b7197bfa421864aeadc586bc96b09ae"
  s := some "0ba0c5b131650ae4994cff1839341d00f3735ef5abc62ac8fe2cf50f65208e2a"
  v := some 0

def goodbyeSignature : MessageSignature where
  r := some "dfdd1da8b13afb10ee56ec496b7442366250bbd8a414757349d707a325ce5389"
  s := some "57015b926557eb0a1a0743faf1603442f6f7777542c9cda0ee9e77f43846717a"
  v := some 1

/-- Two vaults sign at once, and the call that comes second is served first. -/
def greetings : List (SigningAction greeter) :=
  [.constructed 0 "1" (some "ETH_TEST5"), .constructed 1 "2" (some "ETH_TEST5"),
    .called 1 0 (.signMessage "hello"), .called 2 1 (.signMessage "goodbye"), .created 1 "tx-a", .created 2 "tx-b",
    .progressed "tx-b" ⟨.completed, none, some [⟨some goodbyeSignature⟩]⟩, .polled 1 none, .polled 2 none,
    .progressed "tx-a" ⟨.completed, none, some [⟨some helloSignature⟩]⟩, .polled 1 none]

/-- The call that was served first has its transaction to itself. -/
theorem goodbye_apart : ∃ s tx, s.transactions "tx-b" = some tx ∧
    ∃! id, ∃ c, s.calls id = some c ∧ MadeFor (E := greeter) s tx "tx-b" id c := by
  have hseen : ((exec (signingStep fun _ => "") .init greetings).bind fun s =>
      s.transactions "tx-b").isSome = true := by
    decide +kernel
  obtain ⟨tx, hseen⟩ := Option.isSome_iff_exists.mp hseen
  obtain ⟨s, hexec, htx⟩ := Option.bind_eq_some_iff.mp hseen
  exact ⟨s, tx, htx, (raw_requests_apart (reach_of_exec hexec)).1 "tx-b" tx htx⟩

end FinP2PAdapter.Fireblocks
