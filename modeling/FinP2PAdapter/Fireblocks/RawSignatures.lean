import FinP2PAdapter.Fireblocks.SigningCalls

/-! Signatures of the vaults' keys. If Fireblocks names the vaults' own addresses and signs with the vaults' keys,
then what a signer returns recovers to the address that it returns, however many calls of however many signers are
under way. Fireblocks writes a signature as bare hex with the parity of `y`; ethers reads it with `0x` and with
27 or 28. -/

namespace FinP2PAdapter.Fireblocks

open Accounts (truthy)
open Machine

/-! ### Hex -/

def hexDigit? (c : Char) : Option ℕ :=
  if c.isDigit then some (c.toNat - '0'.toNat)
  else if 'a' ≤ c ∧ c ≤ 'f' then some (c.toNat - 'a'.toNat + 10)
  else if 'A' ≤ c ∧ c ≤ 'F' then some (c.toNat - 'A'.toNat + 10)
  else none

/-- The number that 32 bytes in hex are. -/
def bytes32? (hex : String) : Option ℕ :=
  if hex.toList.length = 64 then hex.toList.foldlM (fun n c => (hexDigit? c).map (16 * n + ·)) 0 else none

def prefixedBytes32? (text : String) : Option ℕ :=
  match text.toList with
  | '0' :: 'x' :: hex => bytes32? (String.ofList hex)
  | _ => none

@[simp] theorem prefixedBytes32?_append (hex : String) : prefixedBytes32? ("0x" ++ hex) = bytes32? hex := by
  have hlist : ("0x" ++ hex).toList = '0' :: 'x' :: hex.toList := String.toList_append
  unfold prefixedBytes32?
  rw [hlist]
  show bytes32? (String.ofList hex.toList) = bytes32? hex
  rw [String.ofList_toList]

/-! ### Whose signature it is -/

/-- The keys that Fireblocks holds: the address of a vault's key for an asset, and the address of the key that a
digest was signed with, by the signature's two numbers and whether its `y` is odd. -/
structure Keys where
  addressOf : String → String → String
  recover : ℕ → ℕ → ℕ → Bool → Option String

namespace Keys

variable (keys : Keys)

/-- The address that a signature of Fireblocks's recovers to. Its `v` is 0 or 1. -/
def recoverRaw (content r s : String) (v : ℕ) : Option String :=
  (bytes32? content).bind fun digest => (bytes32? r).bind fun r => (bytes32? s).bind fun s =>
    match v with
    | 0 => keys.recover digest r s false
    | 1 => keys.recover digest r s true
    | _ => none

/-- `Signature.from` reads 0 and 27 as even, 1 and 28 as odd, and a `v` with a chain id the other way round. -/
def yParity (v : ℕ) : Bool :=
  if v = 0 ∨ v = 27 then false else if v = 1 ∨ v = 28 then true else v % 2 = 0

/-- The address that a signature of ethers's recovers to. -/
def recoverAddress (digest : String) (signature : Signature) : Option String :=
  (prefixedBytes32? digest).bind fun digest => (prefixedBytes32? signature.r).bind fun r =>
    (prefixedBytes32? signature.s).bind fun s => keys.recover digest r s (yParity signature.v)

/-- What the signer makes of Fireblocks's signature recovers to the same address. -/
theorem recoverAddress_of_raw {content r s address : String} {v : ℕ}
    (h : keys.recoverRaw content r s v = some address) :
    keys.recoverAddress ("0x" ++ content) ⟨"0x" ++ r, "0x" ++ s, v + 27⟩ = some address := by
  unfold recoverRaw at h
  obtain ⟨digest, hdigest, h⟩ := Option.bind_eq_some_iff.mp h
  obtain ⟨x, hx, h⟩ := Option.bind_eq_some_iff.mp h
  obtain ⟨y, hy, h⟩ := Option.bind_eq_some_iff.mp h
  simp only [recoverAddress, prefixedBytes32?_append, hdigest, hx, hy, Option.bind_some]
  match v, h with
  | 0, h => exact h
  | 1, h => exact h

end Keys

variable {E : Ethers} {stringify : MessageSignature → String} {keys : Keys} {s s' : SigningState E} {id k : ℕ}
  {c : SigningCall E} {signer : RawSigner} {txId : String}

/-- What is completed is signed: the first message's signature is the vault's, of what was asked for. -/
def VaultSigned (keys : Keys) (tx : RawTransaction) (info : TransactionInfo) : Prop :=
  info.status = .completed → ∀ signature ∈ (info.signedMessages.bind List.head?).bind SignedMessage.signature,
    ∀ r ∈ signature.r, ∀ s ∈ signature.s, ∀ v ∈ signature.v,
      keys.recoverRaw tx.content r s v = some (keys.addressOf tx.vaultAccountId tx.assetId)

instance (tx : RawTransaction) (info : TransactionInfo) : Decidable (VaultSigned keys tx info) := by
  unfold VaultSigned
  infer_instance

/-- Fireblocks names a vault's own address first, and what it reports as completed it has signed with the vault's
key. -/
def Genuine (keys : Keys) (s : SigningState E) : SigningAction E → Prop
  | .addressed id (.ok (address :: _)) => ∀ c ∈ s.calls id, ∀ signer ∈ s.signers c.signer,
    address = keys.addressOf signer.vaultAccountId signer.assetId
  | .progressed txId info => ∀ tx ∈ s.transactions txId, VaultSigned keys tx info
  | _ => True

instance (a : SigningAction E) : Decidable (Genuine keys s a) := by
  unfold Genuine
  split
  · infer_instance
  · infer_instance
  · exact instDecidableTrue

/-- A signature that is read from a genuine answer is the vault's. -/
theorem VaultSigned.read {tx : RawTransaction} {info : TransactionInfo} {signature : Signature}
    (h : VaultSigned keys tx info) (hstatus : info.status = .completed)
    (hread : readSignature stringify txId info = .ok signature) :
    keys.recoverAddress ("0x" ++ tx.content) signature = some (keys.addressOf tx.vaultAccountId tx.assetId) := by
  unfold readSignature at hread
  split at hread
  · cases hread
  · rename_i raw hraw
    split at hread
    · rename_i r s v hr hs hv
      cases hread
      obtain ⟨hr, -⟩ := Accounts.truthy_eq_some.mp hr
      obtain ⟨hs, -⟩ := Accounts.truthy_eq_some.mp hs
      exact keys.recoverAddress_of_raw (h hstatus raw hraw r hr s hs v hv)
    · cases hread

structure Signed (keys : Keys) (s : SigningState E) : Prop where
  completed : ∀ txId tx, s.transactions txId = some tx → VaultSigned keys tx tx.info
  cached : ∀ k signer address, s.signers k = some signer → truthy signer.cachedAddress = some address →
    address = keys.addressOf signer.vaultAccountId signer.assetId
  named : ∀ id c job txId text, s.calls id = some c → c.stage = .ended job txId (.ok text) → c.request = .getAddress →
    ∃ signer, s.signers c.signer = some signer ∧ text = keys.addressOf signer.vaultAccountId signer.assetId

theorem Signed.putSigner (h : Signed keys s) (hgrown : SigningGrown s (s.putSigner k signer))
    (hcached : ∀ address, truthy signer.cachedAddress = some address →
      address = keys.addressOf signer.vaultAccountId signer.assetId) :
    Signed keys (s.putSigner k signer) where
  completed := h.completed
  cached := by
    intro k' signer' address hsigner' haddress
    have hsigner' : Function.update s.signers k (some signer) k' = some signer' := hsigner'
    rw [Function.update_apply] at hsigner'
    split_ifs at hsigner' with hk
    · cases hsigner'
      exact hcached address haddress
    · exact h.cached k' signer' address hsigner' haddress
  named := by
    intro id c job txId text hc hstage hrequest
    obtain ⟨old, hold, htext⟩ := h.named id c job txId text hc hstage hrequest
    obtain ⟨signer', hsigner', hvault, hasset⟩ := hgrown.signers _ _ hold
    exact ⟨signer', hsigner', by rw [htext, hvault, hasset]⟩

theorem Signed.putTransaction {tx : RawTransaction} (h : Signed keys s)
    (hcompleted : VaultSigned keys tx tx.info) : Signed keys (s.putTransaction txId tx) where
  completed := by
    intro txId' tx' htx'
    have htx' : Function.update s.transactions txId (some tx) txId' = some tx' := htx'
    rw [Function.update_apply] at htx'
    split_ifs at htx' with hid
    · cases htx'
      exact hcompleted
    · exact h.completed txId' tx' htx'
  cached := h.cached
  named := h.named

theorem Signed.put (h : Signed keys s)
    (hnamed : ∀ job txId text, c.stage = .ended job txId (.ok text) → c.request = .getAddress →
      ∃ signer, s.signers c.signer = some signer ∧ text = keys.addressOf signer.vaultAccountId signer.assetId) :
    Signed keys (s.put id c) where
  completed := h.completed
  cached := h.cached
  named := by
    intro id' c' job txId text hc'
    exact forall_update (P := fun _ c' => ∀ job txId text, c'.stage = .ended job txId (.ok text) →
      c'.request = .getAddress → ∃ signer, s.signers c'.signer = some signer ∧
        text = keys.addressOf signer.vaultAccountId signer.assetId)
      (fun k e he job txId text => h.named k e job txId text he) hnamed hc' job txId text

theorem Signed.answer (h : Signed keys s) (id : ℕ) (fields : E.Fields) : Signed keys (s.answer id fields) :=
  ⟨h.completed, h.cached, h.named⟩

theorem rawSign_ne_returned (work : Work E) (job : Option (Job E)) (txId : Option String) (text : String) :
    rawSign work ≠ .ended job txId (.ok text) := by
  rcases rawSign_cases work with ⟨message, hstage⟩ | ⟨job', hstage, -⟩ <;> rw [hstage] <;> nofun

theorem Signed.step {a : SigningAction E} (hs : SigningSound stringify s) (h : Signed keys s)
    (hgenuine : Genuine keys s a) (hstep : signingStep stringify s a = some s') :
    Signed keys s' := by
  cases signingStep_moves hstep with
  | joined hfree =>
    refine h.putSigner (grown_putSigner fun old hold => ?_) fun address haddress => ?_
    · rw [hfree] at hold
      cases hold
    · cases haddress
  | @began id k request signer hfree hsigner =>
    refine h.put fun job txId text hstage hrequest => ?_
    cases hrequest
    have hstage : firstStage signer .getAddress = SigningStage.ended job txId (.ok text) := hstage
    simp only [firstStage] at hstage
    cases hcached : truthy signer.cachedAddress with
    | some address =>
      rw [hcached] at hstage
      cases hstage
      exact ⟨signer, hsigner, h.cached k signer _ hsigner hcached⟩
    | none =>
      rw [hcached] at hstage
      cases hstage
  | failed hc hjob htxId => exact h.put (by rintro _ _ _ ⟨⟩)
  | @learnt id k request signer address rest hc hsigner =>
    have hown : address = keys.addressOf signer.vaultAccountId signer.assetId := hgenuine _ hc _ hsigner
    have hworld : Signed keys (s.putSigner k { signer with cachedAddress := some address }) := by
      refine h.putSigner (grown_putSigner fun old hold => ?_) fun cached hcached => ?_
      · rw [hsigner] at hold
        cases hold
        exact ⟨rfl, rfl⟩
      · obtain ⟨hsame, -⟩ := Accounts.truthy_eq_some.mp hcached
        cases hsame
        exact hown
    refine hworld.put fun job txId text hstage _ => ?_
    cases hstage
    exact ⟨_, Function.update_self .., hown⟩
  | @populated id _ _ fields _ hc hfields =>
    exact (h.answer id fields).put fun job txId text hstage => absurd hstage (rawSign_ne_returned _ job txId text)
  | @unpopulated id _ _ fields _ hc hfields => exact (h.answer id fields).put (by rintro _ _ _ ⟨⟩)
  | made hc hsigner habsent => exact (h.putTransaction fun hstatus => by cases hstatus).put (by rintro _ _ _ ⟨⟩)
  | lost hc hsigner habsent => exact (h.putTransaction fun hstatus => by cases hstatus).put (by rintro _ _ _ ⟨⟩)
  | refused hc => exact h.put (by rintro _ _ _ ⟨⟩)
  | @progressed txId tx info htx hfinal => exact h.putTransaction (hgenuine tx htx)
  | unanswered hc => exact h.put (by rintro _ _ _ ⟨⟩)
  | @finished id k request job txId tx outcome hc htx hfinish =>
    refine h.put fun job' txId' text hstage hrequest => ?_
    -- no call to sign is a call for the address
    have hfits := (hs.calls id _ hc).fits job rfl
    cases hrequest
    cases hwork : job.work <;> rw [hwork] at hfits <;> exact hfits.elim
  | waited => exact h

theorem signed_init : Signed keys (.init : SigningState E) where
  completed := by
    intro txId tx htx
    cases htx
  cached := by
    intro k signer address hsigner
    cases hsigner
  named := by
    intro id c job txId text hc
    cases hc

/-- If Fireblocks names the vaults' addresses and signs with the vaults' keys, then a signer's address is its
vault's, and each signature that any call of the signer returns, with however many others under way, recovers from
the hash of what that call was to sign to this address. -/
theorem raw_signatures_recover (hrun : ReachUnder (signingStep stringify) (Genuine keys) .init s) :
    ∀ id c signer job txId text, s.calls id = some c → s.signers c.signer = some signer →
      c.stage = .ended job txId (.ok text) →
        (c.request = .getAddress → text = keys.addressOf signer.vaultAccountId signer.assetId) ∧
        (c.request ≠ .getAddress → ∃ (work : Work E) (digest : Digest) (signature : Signature),
          work.Fits (s.populated id) c.request ∧ work.digest = .ok digest ∧ work.seal signature = .ok text ∧
          keys.recoverAddress digest.text signature = some (keys.addressOf signer.vaultAccountId signer.assetId)) := by
  have hs := signing_sound hrun.reach
  have hsigned : Signed keys s := hrun.invariant_from (fun t ht => signing_sound ht.reach) signed_init
    fun t a t' ht h ha hstep => h.step ht ha hstep
  intro id c signer job txId text hc hsigner hstage
  refine ⟨fun hrequest => ?_, fun hrequest => ?_⟩
  · obtain ⟨signer', hsigner', htext⟩ := hsigned.named id c job txId text hc hstage hrequest
    rw [hsigner] at hsigner'
    cases hsigner'
    exact htext
  · rcases (hs.calls id c hc).returned job txId text hstage with haddress | ⟨job', txId', tx, hended, htx, hfinish⟩
    · exact absurd haddress hrequest
    · obtain ⟨hcompleted, signature, hread, hseal⟩ := finish_ok hfinish
      obtain ⟨-, signer', job'', hsigner', hjob, hfits, hcontent, hvault, hasset⟩ :=
        made_for hs htx hc (by rw [hended]; rfl)
      rw [hsigner] at hsigner'
      cases hsigner'
      rw [hended] at hjob
      cases hjob
      have hrecovers := (hsigned.completed txId' tx htx).read hcompleted hread
      rw [hcontent, contentOf_digest, hvault, hasset] at hrecovers
      exact ⟨job'.work, job'.digest, signature, hfits, job'.hashed, hseal, hrecovers⟩

/-- The vaults' keys, on the signatures of the two messages. -/
def greeterKeys : Keys where
  addressOf := fun vaultAccountId _ =>
    if vaultAccountId = "1" then "0x7E5F4552091A69125d5DfCb7b8C2659029395Bdf"
    else "0x2B5AD5c4795c026514f8317c7a215E218DcCD6cF"
  recover := fun digest r s odd =>
    if digest = 0x50b2c43fd39106bafbba0da34fc430e1f91e3c96ea2acee2bc34119f92b37750 ∧
      r = 0xe5ddc160e4c8f92de507c7db9b982d4f9b7197bfa421864aeadc586bc96b09ae ∧
      s = 0x0ba0c5b131650ae4994cff1839341d00f3735ef5abc62ac8fe2cf50f65208e2a ∧ odd = false then
      some "0x7E5F4552091A69125d5DfCb7b8C2659029395Bdf"
    else if digest = 0xd6b2abf956a7e05dcb50e1ab4cd248820ec013c4237f14d59049b0fe179e244e ∧
      r = 0xdfdd1da8b13afb10ee56ec496b7442366250bbd8a414757349d707a325ce5389 ∧
      s = 0x57015b926557eb0a1a0743faf1603442f6f7777542c9cda0ee9e77f43846717a ∧ odd = true then
      some "0x2B5AD5c4795c026514f8317c7a215E218DcCD6cF"
    else none

/-- What a call that has returned was to sign and has returned. -/
def SigningCall.signed? (c : SigningCall greeter) : Option (String × String) :=
  match c with
  | ⟨_, .signMessage asked, .ended _ _ (.ok text)⟩ => some (asked, text)
  | _ => none

theorem SigningCall.of_signed? {c : SigningCall greeter} {asked text : String} (h : c.signed? = some (asked, text)) :
    c.request = .signMessage asked ∧ ∃ job txId, c.stage = .ended job txId (.ok text) := by
  unfold signed? at h
  split at h
  · rename_i job txId text'
    cases h
    exact ⟨rfl, job, txId, rfl⟩
  · cases h

def helloText : String :=
  "0xe5ddc160e4c8f92de507c7db9b982d4f9b7197bfa421864aeadc586bc96b09ae" ++
    "0ba0c5b131650ae4994cff1839341d00f3735ef5abc62ac8fe2cf50f65208e2a1b"

theorem greetings_run : ∃ s c signer,
    ReachUnder (signingStep fun _ => "") (Genuine greeterKeys) .init s ∧
    s.calls 1 = some c ∧ s.signers c.signer = some signer ∧ signer.vaultAccountId = "1" ∧
    c.signed? = some ("hello", helloText) := by
  have hseen : (exec (guarded (signingStep fun _ => "") (Genuine greeterKeys)) .init greetings).map
      (fun s => (s.calls 1).map fun c => ((s.signers c.signer).map RawSigner.vaultAccountId, c.signed?)) =
        some (some (some "1", some ("hello", helloText))) := by
    decide +kernel
  obtain ⟨s, hexec, hs⟩ := Option.map_eq_some_iff.mp hseen
  obtain ⟨c, hc, hcs⟩ := Option.map_eq_some_iff.mp hs
  rw [Prod.mk.injEq] at hcs
  obtain ⟨signer, hsigner, hvault⟩ := Option.map_eq_some_iff.mp hcs.1
  exact ⟨s, c, signer, reachUnder_of_exec hexec, hc, hsigner, hvault, hcs.2⟩

theorem hello_recovers : ∃ signature, greeter.signatureSerialized signature = .ok helloText ∧
    greeterKeys.recoverAddress (greeter.hashMessage "hello").text signature =
      some "0x7E5F4552091A69125d5DfCb7b8C2659029395Bdf" := by
  obtain ⟨s, c, signer, hrun, hc, hsigner, hvault, hsigned⟩ := greetings_run
  obtain ⟨hrequest, job, txId, hstage⟩ := SigningCall.of_signed? hsigned
  obtain ⟨work, digest, signature, hfits, hdigest, hseal, hrecovers⟩ :=
    (raw_signatures_recover hrun 1 c signer job txId helloText hc hsigner hstage).2 (by rw [hrequest]; nofun)
  rw [hrequest] at hfits
  cases work with
  | transaction unsignedTx => exact hfits.elim
  | typedData data => exact hfits.elim
  | message text =>
    cases hfits
    cases hdigest
    rw [hvault] at hrecovers
    exact ⟨signature, hseal, hrecovers⟩

end FinP2PAdapter.Fireblocks
