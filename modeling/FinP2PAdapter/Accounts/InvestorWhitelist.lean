import FinP2PAdapter.Library.CaseFold
import FinP2PAdapter.Library.JsText
import FinP2PAdapter.Library.Sweeps
import FinP2PAdapter.PlanApproval.TokenWhitelisting

/-! The whitelists of investors. Each token standard with the capability keeps its own, on the
chain; nothing is stored here. A sweep takes a party off every whitelist it is on, goes on after
a refusal, and tells at its end which assets refused. -/

namespace FinP2PAdapter.Accounts

open Sweeps TokenStandards
open Omnibus (AssetRecord)

/-- The party a request is about. -/
inductive WhitelistParty where
  | finId (finId : String)
  | address (address : String)
  deriving DecidableEq, Repr

/-- The party as the standards are told of it. -/
structure SpiParty extends PlanApproval.WhitelistParty where
  country : Option ℕ
  deriving DecidableEq, Repr

/-- `config.country`; a value that is neither an integer nor a text is known by how it prints. -/
inductive CountryValue where
  | absent
  | integer (n : ℤ)
  | text (s : String)
  | other (printed : String)
  deriving DecidableEq, Repr

def CountryValue.printed : CountryValue → String
  | .absent => "undefined"
  | .integer n => toString n
  | .text s | .other s => s

inductive WhitelistError where
  | validation (message : String)
  | refused (message : String)
  | fault (message : String)
  deriving DecidableEq, Repr

/-- The capability: each method may throw, and all but the check may change the chain. -/
structure InvestorWhitelisting (σ : Type) where
  isWhitelisted : AssetRecord → SpiParty → σ → Except String Bool
  whitelist : AssetRecord → SpiParty → σ → Except String TokenOperationResult × σ
  dewhitelist : AssetRecord → SpiParty → σ → Except String TokenOperationResult × σ

/-- What a standard has of the capability's methods. -/
structure StandardMethods (σ : Type) where
  isWhitelisted : Option (AssetRecord → SpiParty → σ → Except String Bool)
  whitelist : Option (AssetRecord → SpiParty → σ → Except String TokenOperationResult × σ)
  dewhitelist : Option (AssetRecord → SpiParty → σ → Except String TokenOperationResult × σ)

def supportsWhitelisting {σ : Type} (standard : StandardMethods σ) : Option (InvestorWhitelisting σ) :=
  match standard.isWhitelisted, standard.whitelist, standard.dewhitelist with
  | some isWhitelisted, some whitelist, some dewhitelist => some ⟨isWhitelisted, whitelist, dewhitelist⟩
  | _, _, _ => none

/-- A row of the assets table. -/
structure StoredAsset where
  id : String
  contractAddress : String
  decimals : ℕ
  tokenStandard : String
  deriving DecidableEq, Repr

structure CapableAsset (σ : Type) where
  id : String
  record : AssetRecord
  standard : InvestorWhitelisting σ

/-- A call that may change the chain, with what the standard answered. -/
inductive Mutation where
  | whitelist (asset : AssetRecord) (party : SpiParty) (answer : Except String TokenOperationResult)
  | dewhitelist (asset : AssetRecord) (party : SpiParty) (answer : Except String TokenOperationResult)

structure World (σ : Type) where
  chain : σ
  mutations : List Mutation

structure InvestorWhitelistEntry where
  party : WhitelistParty
  assetId : String
  country : CountryValue
  deriving DecidableEq, Repr

structure InvestorWhitelistServiceImpl (σ : Type) where
  assetStore : String → Option StoredAsset
  listAssets : List StoredAsset
  accountMapping : AccountMappings
  tokenStandardRegistry : TokenStandardRegistry (StandardMethods σ)
  whitelistPartyId : WhitelistParty → String

/-- An ISO 3166 numeric code. -/
def parseCountry (value : CountryValue) : Except WhitelistError (Option ℕ) :=
  let country : Option ℤ := match value with
    | .integer n => some n
    | .text s => (JsText.digitsValue (JsText.trim s)).map Int.ofNat
    | .absent | .other _ => none
  let printed := value.printed
  let malformed :=
    WhitelistError.validation s!"config.country must be an ISO 3166 numeric code (1-999), got '{printed}'"
  if value = .absent then .ok none
  else
    match country with
    | none => .error malformed
    | some n => if n < 1 ∨ n > 999 then .error malformed else .ok (some n.toNat)

namespace InvestorWhitelistServiceImpl

variable {σ : Type} (service : InvestorWhitelistServiceImpl σ)

def resolveParty (party : WhitelistParty) (country : CountryValue) : Except WhitelistError SpiParty :=
  match parseCountry country with
  | .error e => .error e
  | .ok country =>
    match party with
    | .address address => .ok ⟨⟨none, address, .escrow⟩, country⟩
    | .finId finId =>
      match truthy (resolveAccount service.accountMapping finId) with
      | none => .error (.validation s!"no address mapped for finId {finId}")
      | some address => .ok ⟨⟨some finId, address, .destination⟩, country⟩

def toCapable (dbAsset : StoredAsset) : Option (CapableAsset σ) :=
  if service.tokenStandardRegistry.has dbAsset.tokenStandard = false then none
  else
    match service.tokenStandardRegistry.resolve dbAsset.tokenStandard with
    -- a name that the registry has, it resolves
    | .error _ => none
    | .ok standard => (supportsWhitelisting standard).map fun standard =>
      ⟨dbAsset.id, ⟨dbAsset.contractAddress, dbAsset.decimals, dbAsset.tokenStandard⟩, standard⟩

def capableAsset (assetId : String) : Except WhitelistError (CapableAsset σ) :=
  match service.assetStore assetId with
  | none => .error (.validation s!"asset {assetId} is not kept in this adapter")
  | some dbAsset =>
    match service.toCapable dbAsset with
    | none =>
      let tokenStandard := dbAsset.tokenStandard
      .error (.validation
        s!"token standard '{tokenStandard}' of asset {assetId} has no whitelisting capability")
    | some capable => .ok capable

def capableAssets : List (CapableAsset σ) := service.listAssets.filterMap service.toCapable

/-- The one asset that is named, or else all. -/
def assets (assetId : Option String) : Except WhitelistError (List (CapableAsset σ)) :=
  match truthy assetId with
  | some assetId => (service.capableAsset assetId).map ([·])
  | none => .ok service.capableAssets

def whitelist (party : WhitelistParty) (assetId : String) (country : CountryValue) (w : World σ) :
    Except WhitelistError InvestorWhitelistEntry × World σ :=
  match service.resolveParty party country with
  | .error e => (.error e, w)
  | .ok spiParty =>
    match service.capableAsset assetId with
    | .error e => (.error e, w)
    | .ok asset =>
      let (answer, chain) := asset.standard.whitelist asset.record spiParty w.chain
      let partyId := service.whitelistPartyId party
      (match answer with
        | .error e => .error (.fault e)
        | .ok (.failure reason) =>
          .error (.refused s!"whitelisting {partyId} for asset {assetId} refused: {reason}")
        | .ok (.success _ _) => .ok ⟨party, assetId, country⟩,
        ⟨chain, w.mutations ++ [.whitelist asset.record spiParty answer]⟩)

/-- The loop of a sweep, from the removals and refusals so far. -/
def dewhitelistEach (spiParty : SpiParty) : List (CapableAsset σ) → ℕ → List String → World σ →
    Except WhitelistError (ℕ × List String) × World σ
  | [], removed, refused, w => (.ok (removed, refused), w)
  | asset :: assets, removed, refused, w =>
    match asset.standard.isWhitelisted asset.record spiParty w.chain with
    | .error e => (.error (.fault e), w)
    | .ok false => dewhitelistEach spiParty assets removed refused w
    | .ok true =>
      let (answer, chain) := asset.standard.dewhitelist asset.record spiParty w.chain
      let w' : World σ := ⟨chain, w.mutations ++ [.dewhitelist asset.record spiParty answer]⟩
      match answer with
      | .error e => (.error (.fault e), w')
      | .ok (.failure reason) =>
        let id := asset.id
        dewhitelistEach spiParty assets removed (refused ++ [s!"{id} ({reason})"]) w'
      | .ok (.success _ _) => dewhitelistEach spiParty assets (removed + 1) refused w'

/-- What a sweep ends with, once every asset is done. -/
def report (party : WhitelistParty) (removed : ℕ) (refused : List String) : Except WhitelistError ℕ :=
  let partyId := service.whitelistPartyId party
  let refusals := "; ".intercalate refused
  if refused.length > 0 then
    .error (.refused
      s!"dewhitelisting {partyId} refused for {refusals} — {removed} asset(s) were removed")
  else .ok removed

def dewhitelist (party : WhitelistParty) (assetId : Option String) (w : World σ) :
    Except WhitelistError ℕ × World σ :=
  match service.resolveParty party .absent with
  | .error e => (.error e, w)
  | .ok spiParty =>
    match service.assets assetId with
    | .error e => (.error e, w)
    | .ok assets =>
      match dewhitelistEach spiParty assets 0 [] w with
      | (.error e, w') => (.error e, w')
      | (.ok (removed, refused), w') => (service.report party removed refused, w')

def isWhitelisted (party : WhitelistParty) (assetId : String) (w : World σ) : Except WhitelistError Bool :=
  match service.resolveParty party .absent with
  | .error e => .error e
  | .ok spiParty =>
    match service.capableAsset assetId with
    | .error e => .error e
    | .ok asset => (asset.standard.isWhitelisted asset.record spiParty w.chain).mapError .fault

/-- The entries of the assets whose whitelist the party is on. -/
def entries (party : WhitelistParty) (spiParty : SpiParty) (chain : σ) :
    List (CapableAsset σ) → Except WhitelistError (List InvestorWhitelistEntry)
  | [] => .ok []
  | asset :: assets =>
    match asset.standard.isWhitelisted asset.record spiParty chain with
    | .error e => .error (.fault e)
    | .ok false => entries party spiParty chain assets
    | .ok true => (entries party spiParty chain assets).map (⟨party, asset.id, .absent⟩ :: ·)

def getWhitelist (party : Option WhitelistParty) (assetId : Option String) (w : World σ) :
    Except WhitelistError (List InvestorWhitelistEntry) :=
  match party with
  | none => .ok []
  | some party =>
    match service.resolveParty party .absent with
    | .error e => .error e
    | .ok spiParty =>
      match service.assets assetId with
      | .error e => .error e
      | .ok assets => entries party spiParty w.chain assets

/-! ### Sweeps -/

/-- The party is on the asset's whitelist. -/
def present (spiParty : SpiParty) (asset : CapableAsset σ) (chain : σ) : Bool :=
  match asset.standard.isWhitelisted asset.record spiParty chain with
  | .ok b => b
  | .error _ => false

/-- A removal, of a standard that answers. -/
def attempt (spiParty : SpiParty) (asset : CapableAsset σ) (chain : σ) : TokenOperationResult × σ :=
  let (answer, after) := asset.standard.dewhitelist asset.record spiParty chain
  (match answer with
    | .ok answer => answer
    | .error e => .failure e, after)

def isRemoved : TokenOperationResult → Bool
  | .success _ _ => true
  | .failure _ => false

/-- How an attempt is named among the refusals. -/
def refusal : CapableAsset σ × TokenOperationResult → Option String
  | (asset, .failure reason) =>
    let id := asset.id
    some s!"{id} ({reason})"
  | (_, .success _ _) => none

/-- What a sweep that made these attempts ends with. -/
def verdict (party : WhitelistParty) (attempts : List (CapableAsset σ × TokenOperationResult)) :
    Except WhitelistError ℕ :=
  service.report party (attempts.countP fun a => isRemoved a.2) (attempts.filterMap refusal)

/-- The sweeps of several parties, one after the other. -/
def sweeps (parties : List WhitelistParty) (w : World σ) : World σ :=
  parties.foldl (fun w party => (service.dewhitelist party none w).2) w

/-- The standards answer; a removal takes the party off the asset's whitelist, and is felt by no
other asset and no other party. Parties are told apart by their addresses: of those at one address a
removal brings none on a whitelist. -/
structure Settles : Prop where
  asked : ∀ asset ∈ service.capableAssets, ∀ spiParty chain,
    ∃ b, asset.standard.isWhitelisted asset.record spiParty chain = .ok b
  answered : ∀ asset ∈ service.capableAssets, ∀ spiParty chain,
    ∃ answer, (asset.standard.dewhitelist asset.record spiParty chain).1 = .ok answer
  removes : ∀ asset ∈ service.capableAssets, ∀ spiParty chain,
    isRemoved (attempt spiParty asset chain).1 = true →
      present spiParty asset (attempt spiParty asset chain).2 = false
  otherAssets : ∀ spiParty, service.capableAssets.Pairwise (Apart (present spiParty) (attempt spiParty))
  otherParties : ∀ asset ∈ service.capableAssets, ∀ asset' ∈ service.capableAssets,
    ∀ spiParty spiParty' chain, ¬ SameUpToCase spiParty.address spiParty'.address →
      present spiParty' asset' (attempt spiParty asset chain).2 = present spiParty' asset' chain
  sameAddress : ∀ asset ∈ service.capableAssets, ∀ asset' ∈ service.capableAssets,
    ∀ spiParty spiParty' chain, SameUpToCase spiParty.address spiParty'.address →
      present spiParty asset chain = true →
      present spiParty' asset' (attempt spiParty asset chain).2 = true →
      present spiParty' asset' chain = true

variable {service}

/-- The attempts of a sweep and the chain it leaves. -/
abbrev sweepOf (spiParty : SpiParty) (assets : List (CapableAsset σ)) (chain : σ) :
    List (CapableAsset σ × TokenOperationResult) × σ :=
  sweep (present spiParty) (attempt spiParty) assets chain

def mutationOf (spiParty : SpiParty) (a : CapableAsset σ × TokenOperationResult) : Mutation :=
  .dewhitelist a.1.record spiParty (.ok a.2)

/-- The loop is a sweep, whose attempts it counts. -/
theorem dewhitelistEach_eq (h : service.Settles) (spiParty : SpiParty) {assets : List (CapableAsset σ)}
    (hassets : ∀ asset ∈ assets, asset ∈ service.capableAssets) (removed : ℕ) (refused : List String)
    (w : World σ) : dewhitelistEach spiParty assets removed refused w =
      (.ok (removed + (sweepOf spiParty assets w.chain).1.countP fun a => isRemoved a.2,
          refused ++ (sweepOf spiParty assets w.chain).1.filterMap refusal),
        ⟨(sweepOf spiParty assets w.chain).2,
          w.mutations ++ (sweepOf spiParty assets w.chain).1.map (mutationOf spiParty)⟩) := by
  induction assets generalizing removed refused w with
  | nil => simp [dewhitelistEach, sweepOf, sweep]
  | cons asset assets ih =>
    obtain ⟨hasset, hrest⟩ := List.forall_mem_cons.mp hassets
    obtain ⟨b, hb⟩ := h.asked asset hasset spiParty w.chain
    have hpresent : present spiParty asset w.chain = b := by simp [present, hb]
    cases b with
    | false =>
      rw [dewhitelistEach, hb, sweepOf, sweep_cons_absent hpresent]
      exact ih hrest removed refused w
    | true =>
      obtain ⟨answer, hanswer⟩ := h.answered asset hasset spiParty w.chain
      have hattempt : attempt spiParty asset w.chain =
          (answer, (asset.standard.dewhitelist asset.record spiParty w.chain).2) := by
        simp [attempt, hanswer]
      rw [dewhitelistEach, hb, sweepOf, sweep_cons_present hpresent, hattempt]
      cases answer with
      | success id time =>
        simp only [hanswer, ih hrest, List.countP_cons, List.filterMap_cons, List.map_cons, refusal,
          mutationOf, isRemoved, if_true, List.append_assoc, List.singleton_append]
        rw [Nat.add_assoc, Nat.add_comm 1]
      | failure reason =>
        simp only [hanswer, ih hrest, List.countP_cons, List.filterMap_cons, List.map_cons, refusal,
          mutationOf, isRemoved, Bool.false_eq_true, if_false, Nat.add_zero,
          List.append_assoc, List.singleton_append]

theorem dewhitelist_unresolved {party : WhitelistParty} {e : WhitelistError}
    (hparty : service.resolveParty party .absent = .error e) (assetId : Option String) (w : World σ) :
    service.dewhitelist party assetId w = (.error e, w) := by
  rw [dewhitelist, hparty]

theorem dewhitelist_eq (h : service.Settles) {party : WhitelistParty} {spiParty : SpiParty}
    (hparty : service.resolveParty party .absent = .ok spiParty) (w : World σ) :
    service.dewhitelist party none w =
      (service.verdict party (sweepOf spiParty service.capableAssets w.chain).1,
        ⟨(sweepOf spiParty service.capableAssets w.chain).2,
          w.mutations ++
            (sweepOf spiParty service.capableAssets w.chain).1.map (mutationOf spiParty)⟩) := by
  have hassets : service.assets none = .ok service.capableAssets := rfl
  rw [dewhitelist, hparty, hassets]
  simp only [dewhitelistEach_eq h spiParty (fun _ => id), verdict, Nat.zero_add, List.nil_append]

/-- A sweep brings nobody back on a whitelist. -/
theorem absent_dewhitelist (h : service.Settles) {spiParty : SpiParty} {asset : CapableAsset σ}
    (hasset : asset ∈ service.capableAssets) (party : WhitelistParty) {w : World σ}
    (habsent : present spiParty asset w.chain = false) :
    present spiParty asset (service.dewhitelist party none w).2.chain = false := by
  cases hparty : service.resolveParty party .absent with
  | error e =>
    rw [dewhitelist_unresolved hparty]
    exact habsent
  | ok swept =>
    rw [dewhitelist_eq h hparty]
    refine sweep_invariant (P := fun s => present spiParty asset s = false)
      (fun a ha s hpresent hs => ?_) habsent
    by_cases hsame : SameUpToCase swept.address spiParty.address
    · by_contra hback
      rw [Bool.not_eq_false] at hback
      rw [h.sameAddress a ha asset hasset swept spiParty s hsame hpresent hback] at hs
      cases hs
    · exact (h.otherParties a ha asset hasset swept spiParty s hsame).trans hs

theorem absent_sweeps (h : service.Settles) {spiParty : SpiParty} {asset : CapableAsset σ}
    (hasset : asset ∈ service.capableAssets) (parties : List WhitelistParty) {w : World σ}
    (habsent : present spiParty asset w.chain = false) :
    present spiParty asset (service.sweeps parties w).chain = false := by
  induction parties generalizing w with
  | nil => exact habsent
  | cons party parties ih => exact ih (absent_dewhitelist h hasset party habsent)

/-- The entries are those of the assets whose whitelist the party is on. -/
theorem entries_eq (h : service.Settles) (party : WhitelistParty) (spiParty : SpiParty) (chain : σ)
    {assets : List (CapableAsset σ)} (hassets : ∀ asset ∈ assets, asset ∈ service.capableAssets) :
    entries party spiParty chain assets = .ok ((assets.filter (present spiParty · chain)).map fun asset =>
      ⟨party, asset.id, .absent⟩) := by
  induction assets with
  | nil => rfl
  | cons asset assets ih =>
    obtain ⟨hasset, hrest⟩ := List.forall_mem_cons.mp hassets
    obtain ⟨b, hb⟩ := h.asked asset hasset spiParty chain
    have hpresent : present spiParty asset chain = b := by simp [present, hb]
    rw [entries, hb, ih hrest, List.filter_cons, hpresent]
    cases b <;> rfl

theorem getWhitelist_eq (h : service.Settles) {party : WhitelistParty} {spiParty : SpiParty}
    (hparty : service.resolveParty party .absent = .ok spiParty) (w : World σ) :
    service.getWhitelist (some party) none w =
      .ok ((service.capableAssets.filter (present spiParty · w.chain)).map fun asset =>
        ⟨party, asset.id, .absent⟩) := by
  have hassets : service.assets none = .ok service.capableAssets := rfl
  simp only [getWhitelist, hparty, hassets]
  exact entries_eq h party spiParty w.chain fun _ => id

theorem filterMap_refusal_eq_nil {attempts : List (CapableAsset σ × TokenOperationResult)} :
    attempts.filterMap refusal = [] ↔ ∀ a ∈ attempts, isRemoved a.2 = true := by
  rw [List.filterMap_eq_nil_iff]
  refine forall₂_congr fun a _ => ?_
  obtain ⟨asset, answer⟩ := a
  cases answer <;> simp [refusal, isRemoved]

/-- Where a party still is on a whitelist after a sweep, the sweep was refused. -/
theorem refused_of_present (h : service.Settles) {spiParty : SpiParty} {asset : CapableAsset σ}
    (hasset : asset ∈ service.capableAssets) {chain : σ}
    (hpresent : present spiParty asset (sweepOf spiParty service.capableAssets chain).2 = true) :
    ∃ reason, (asset, .failure reason) ∈ (sweepOf spiParty service.capableAssets chain).1 := by
  obtain ⟨answer, hattempt, hrefused⟩ := present_of_refused (R := fun r => isRemoved r = true)
    (fun a ha => h.removes a ha spiParty) (h.otherAssets spiParty) hasset hpresent
  cases answer with
  | success id time => exact absurd rfl hrefused
  | failure reason => exact ⟨reason, hattempt⟩

/-- For every list of stored assets and all answers of their standards, and after any sweeps: a
sweep attempts each capable asset on whose whitelist the party is, once and in order, and no
other. It returns how many it removed if none refused, and otherwise tells all that refused. What
still is on a whitelist, however many sweeps later, had refused; so once nothing refuses, the
party is on none. -/
theorem sweep_attempts_whitelisted_once (h : service.Settles) (party : WhitelistParty)
    (earlier : List WhitelistParty) (w : World σ) :
    (∀ e, service.resolveParty party .absent = .error e →
      service.dewhitelist party none (service.sweeps earlier w) = (.error e, service.sweeps earlier w)) ∧
    ∀ spiParty, service.resolveParty party .absent = .ok spiParty →
      ∃ (attempts : List (CapableAsset σ × TokenOperationResult)) (result : Except WhitelistError ℕ)
        (after : World σ),
        service.dewhitelist party none (service.sweeps earlier w) = (result, after) ∧
        attempts.map Prod.fst =
          service.capableAssets.filter (present spiParty · (service.sweeps earlier w).chain) ∧
        after.mutations = (service.sweeps earlier w).mutations ++
          attempts.map (fun a => .dewhitelist a.1.record spiParty (.ok a.2)) ∧
        ((∀ a ∈ attempts, isRemoved a.2 = true) → result = .ok attempts.length ∧
          ∀ later, service.getWhitelist (some party) none (service.sweeps later after) = .ok []) ∧
        (¬ (∀ a ∈ attempts, isRemoved a.2 = true) →
          let partyId := service.whitelistPartyId party
          let refusals := "; ".intercalate (attempts.filterMap refusal)
          let removed := attempts.countP fun a => isRemoved a.2
          result = .error (.refused
            s!"dewhitelisting {partyId} refused for {refusals} — {removed} asset(s) were removed")) ∧
        ∀ later, ∀ asset ∈ service.capableAssets,
          present spiParty asset (service.sweeps later after).chain = true →
            ∃ reason, (asset, .failure reason) ∈ attempts := by
  refine ⟨fun e hparty => dewhitelist_unresolved hparty none _, fun spiParty hparty => ?_⟩
  have hsweep := dewhitelist_eq h hparty (service.sweeps earlier w)
  have hlater : ∀ later, ∀ asset ∈ service.capableAssets,
      present spiParty asset (service.sweeps later
        (service.dewhitelist party none (service.sweeps earlier w)).2).chain = true →
      ∃ reason, (asset, .failure reason) ∈
        (sweepOf spiParty service.capableAssets (service.sweeps earlier w).chain).1 := by
    intro later asset hasset hpresent
    apply refused_of_present h hasset
    by_contra habsent
    rw [Bool.not_eq_true] at habsent
    have hafter := absent_sweeps h hasset later
      (w := (service.dewhitelist party none (service.sweeps earlier w)).2)
      (by rw [hsweep]; exact habsent)
    rw [hafter] at hpresent
    cases hpresent
  refine ⟨_, _, _, Prod.mk.eta.symm, attempted_eq_filter (h.otherAssets spiParty) _, ?_,
    fun hremoved => ⟨?_, fun later => ?_⟩, fun hrefused => ?_, hlater⟩
  · rw [hsweep]
    rfl
  · have hcount := List.countP_eq_length.mpr hremoved
    rw [hsweep, verdict, filterMap_refusal_eq_nil.mpr hremoved, hcount]
    rfl
  · have hnone : service.capableAssets.filter (present spiParty · (service.sweeps later
        (service.dewhitelist party none (service.sweeps earlier w)).2).chain) = [] := by
      rw [List.filter_eq_nil_iff]
      intro asset hasset hpresent
      obtain ⟨reason, hattempt⟩ := hlater later asset hasset hpresent
      cases hremoved _ hattempt
    rw [getWhitelist_eq h hparty, hnone]
    rfl
  · have hsome : 0 < ((sweepOf spiParty service.capableAssets
        (service.sweeps earlier w).chain).1.filterMap refusal).length := by
      rw [List.length_pos_iff, Ne, filterMap_refusal_eq_nil]
      exact hrefused
    rw [hsweep, verdict, report]
    exact if_pos hsome

/-! ### Two assets, one of them paused -/

/-- A capable asset has its standard from the registry. -/
theorem mem_capableAssets {asset : CapableAsset σ} (h : asset ∈ service.capableAssets) :
    ∃ standard, service.tokenStandardRegistry.resolve asset.record.tokenStandard = .ok standard ∧
      supportsWhitelisting standard = some asset.standard := by
  obtain ⟨dbAsset, -, hcapable⟩ := List.mem_filterMap.mp h
  unfold toCapable at hcapable
  split_ifs at hcapable
  cases hstandard : service.tokenStandardRegistry.resolve dbAsset.tokenStandard with
  | error e => simp [hstandard] at hcapable
  | ok standard =>
    simp only [hstandard, Option.map_eq_some_iff] at hcapable
    obtain ⟨capability, hcapability, rfl⟩ := hcapable
    exact ⟨standard, hstandard, hcapability⟩

/-- Whitelists as a list of contracts and lowered addresses; the contract `0xa1` is paused. -/
def pausable : InvestorWhitelisting (List (String × String)) where
  isWhitelisted asset party listed :=
    .ok (decide ((asset.contractAddress, party.address.toLower) ∈ listed))
  whitelist asset party listed :=
    (.ok (.success "0xw" 0), (asset.contractAddress, party.address.toLower) :: listed)
  dewhitelist asset party listed :=
    if asset.contractAddress = "0xa1" then (.ok (.failure "paused"), listed)
    else (.ok (.success "0xd" 0), listed.filter (· ≠ (asset.contractAddress, party.address.toLower)))

def pausableService : InvestorWhitelistServiceImpl (List (String × String)) where
  assetStore _ := none
  listAssets := [⟨"a1", "0xa1", 2, "WL"⟩, ⟨"p1", "0xp1", 2, "PLAIN"⟩, ⟨"a2", "0xa2", 2, "WL"⟩]
  accountMapping finId := if finId = "alice" then some ⟨some "0xalice", none⟩ else none
  tokenStandardRegistry := ⟨String.toUpper, JsMap.empty.set "WL"
    ⟨⟨some pausable.isWhitelisted, some pausable.whitelist, some pausable.dewhitelist⟩, .escrowTransfer⟩⟩
  whitelistPartyId
    | .finId finId => finId
    | .address address => address

theorem pausable_standard {asset : CapableAsset (List (String × String))}
    (h : asset ∈ pausableService.capableAssets) : asset.standard = pausable := by
  obtain ⟨standard, hstandard, hcapability⟩ := mem_capableAssets h
  have hget : ∀ name : String, pausableService.tokenStandardRegistry.standards.get? name =
      if name = "WL" then some ⟨⟨some pausable.isWhitelisted, some pausable.whitelist,
        some pausable.dewhitelist⟩, .escrowTransfer⟩ else none := fun name => JsMap.get?_set _ _ _ _
  unfold TokenStandardRegistry.resolve TokenStandardRegistry.entry at hstandard
  rw [hget] at hstandard
  split_ifs at hstandard with hname
  · cases hstandard
    exact (Option.some.inj hcapability).symm
  · cases hstandard

theorem pausable_present {asset : CapableAsset (List (String × String))}
    (h : asset ∈ pausableService.capableAssets) (spiParty : SpiParty) (listed : List (String × String)) :
    present spiParty asset listed =
      decide ((asset.record.contractAddress, spiParty.address.toLower) ∈ listed) := by
  rw [present, pausable_standard h]
  rfl

/-- An attempt takes off at most the one entry. -/
theorem pausable_attempt {asset : CapableAsset (List (String × String))}
    (h : asset ∈ pausableService.capableAssets) (spiParty : SpiParty) (listed : List (String × String)) :
    attempt spiParty asset listed =
      if asset.record.contractAddress = "0xa1" then (.failure "paused", listed)
      else (.success "0xd" 0,
        listed.filter (· ≠ (asset.record.contractAddress, spiParty.address.toLower))) := by
  rw [attempt, pausable_standard h]
  unfold pausable
  dsimp only
  split_ifs <;> rfl

theorem pausable_kept {asset asset' : CapableAsset (List (String × String))}
    (h : asset ∈ pausableService.capableAssets) (h' : asset' ∈ pausableService.capableAssets)
    {spiParty spiParty' : SpiParty}
    (hne : asset'.record.contractAddress ≠ asset.record.contractAddress ∨
      ¬ SameUpToCase spiParty.address spiParty'.address)
    (listed : List (String × String)) :
    present spiParty' asset' (attempt spiParty asset listed).2 = present spiParty' asset' listed := by
  have hentry : (asset'.record.contractAddress, spiParty'.address.toLower) ≠
      (asset.record.contractAddress, spiParty.address.toLower) := by
    rintro heq
    obtain ⟨hcontract, haddress⟩ := Prod.mk.inj heq
    exact hne.elim (· hcontract) (· haddress.symm)
  rw [pausable_present h', pausable_present h', pausable_attempt h]
  split_ifs
  · rfl
  · simp [hentry]

/-- A removal only takes entries off. -/
theorem pausable_listed {asset asset' : CapableAsset (List (String × String))}
    (h : asset ∈ pausableService.capableAssets) (h' : asset' ∈ pausableService.capableAssets)
    (spiParty spiParty' : SpiParty) (listed : List (String × String))
    (hback : present spiParty' asset' (attempt spiParty asset listed).2 = true) :
    present spiParty' asset' listed = true := by
  rw [pausable_present h', pausable_attempt h] at hback
  rw [pausable_present h']
  split_ifs at hback
  · exact hback
  · exact decide_eq_true (List.mem_of_mem_filter (of_decide_eq_true hback))

theorem pausable_settles : pausableService.Settles where
  asked asset h spiParty listed := ⟨_, by rw [pausable_standard h]; rfl⟩
  answered asset h spiParty listed := by
    rw [pausable_standard h]
    unfold pausable
    dsimp only
    split_ifs <;> exact ⟨_, rfl⟩
  removes asset h spiParty listed hremoved := by
    rw [pausable_attempt h] at hremoved ⊢
    rw [pausable_present h]
    split_ifs at hremoved ⊢
    · cases hremoved
    · simp
  otherAssets spiParty := by
    have hcontracts : (pausableService.capableAssets.map (·.record.contractAddress)).Pairwise (· ≠ ·) := by
      decide +kernel
    refine (List.pairwise_map.mp hcontracts).imp_of_mem fun ha hb hne => ⟨fun s => ?_, fun s => ?_⟩
    · exact pausable_kept ha hb (.inl hne.symm) s
    · exact pausable_kept hb ha (.inl hne) s
  otherParties asset h asset' h' _ _ listed hne := pausable_kept h h' (.inr hne) listed
  sameAddress asset h asset' h' spiParty spiParty' listed _ _ hback :=
    pausable_listed h h' spiParty spiParty' listed hback

/-- A sweep by her address has taken Alice off the whitelist that is not paused; the sweep by her
finId attempts the other one only. -/
theorem pausable_sweep : ∃ (attempts : List (CapableAsset (List (String × String)) × TokenOperationResult))
      (result : Except WhitelistError ℕ) (after : World (List (String × String))),
    pausableService.dewhitelist (.finId "alice") none
      (pausableService.sweeps [.address "0xAlice"] ⟨[("0xa1", "0xalice"), ("0xa2", "0xalice")], []⟩) =
        (result, after) ∧
    attempts.map (·.1.id) = ["a1"] := by
  obtain ⟨attempts, result, after, hrun, hattempts, -⟩ :=
    (sweep_attempts_whitelisted_once pausable_settles (.finId "alice") [.address "0xAlice"]
      ⟨[("0xa1", "0xalice"), ("0xa2", "0xalice")], []⟩).2
      ⟨⟨some "alice", "0xalice", .destination⟩, none⟩ (by decide +kernel)
  refine ⟨attempts, result, after, hrun, ?_⟩
  have hids := congrArg (List.map CapableAsset.id) hattempts
  rw [List.map_map] at hids
  refine hids.trans ?_
  decide +kernel

end InvestorWhitelistServiceImpl

end FinP2PAdapter.Accounts
