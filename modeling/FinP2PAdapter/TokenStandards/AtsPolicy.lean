import FinP2PAdapter.Accounts.AccountResolver
import FinP2PAdapter.Library.JsText
import FinP2PAdapter.Library.Throws

/-! The whitelisting policy that a deployment declares for its ATS tokens. Without one the standard
discovers every mechanism that a token enforces, so what the parser takes for no declaration matters. -/

namespace FinP2PAdapter.TokenStandards.AtsPolicy

open Accounts (truthy)

/-- The plugin's enumeration: its names, and the two that the parser treats apart. -/
structure WhitelistingMechanism where
  values : List String
  none : String
  internalKyc : String
  deriving DecidableEq, Repr

structure WhitelistingConfig where
  mechanism : String
  issuer : Option String
  deriving DecidableEq, Repr

inductive WhitelistingPolicy where
  | one (config : WhitelistingConfig)
  | many (configs : List WhitelistingConfig)
  deriving DecidableEq, Repr

def WhitelistingPolicy.configs : WhitelistingPolicy → List WhitelistingConfig
  | .one config => [config]
  | .many configs => configs

/-- The names of a value: its entries between commas, trimmed, less the empty ones. -/
def namesOf (env : String) : List String := ((JsText.split env ',').map JsText.trim).filter (· ≠ "")

variable (whitelistingMechanism : WhitelistingMechanism)

def unknownMechanism (name : String) : String :=
  let valid := String.intercalate ", " whitelistingMechanism.values.eraseDups
  s!"HEDERA_ATS_WHITELISTING_MECHANISMS: unknown mechanism '{name}' — valid: {valid}"

def configOf (kycIssuerAddress : Option String) (name : String) : Except String WhitelistingConfig :=
  if name ∉ whitelistingMechanism.values then .error (unknownMechanism whitelistingMechanism name)
  else match truthy kycIssuerAddress with
    | some issuer =>
      if name = whitelistingMechanism.internalKyc then .ok ⟨name, some issuer⟩ else .ok ⟨name, none⟩
    | none => .ok ⟨name, none⟩

/-- What the configurations of a value make, in the order they are named. -/
def policyOf (configs : List WhitelistingConfig) : Except String (Option WhitelistingPolicy) :=
  match configs with
  | [] => .ok none
  | [config] => .ok (some (.one config))
  | configs =>
    if configs.any fun config => config.mechanism = whitelistingMechanism.none then
      .error "HEDERA_ATS_WHITELISTING_MECHANISMS: 'none' is exclusive and cannot be combined with other mechanisms"
    else .ok (some (.many configs))

/-- No policy is full discovery. -/
def parseAtsWhitelistingMechanisms (env kycIssuerAddress : Option String) :
    Except String (Option WhitelistingPolicy) :=
  match env with
  | none => .ok none
  | some env =>
    if JsText.trim env = "" then .ok none
    else (namesOf env).mapM (configOf whitelistingMechanism kycIssuerAddress) >>= policyOf whitelistingMechanism

/-- The variable is absent or blank. -/
def Blank (env : Option String) : Prop := ∀ value ∈ env, ∀ c ∈ value.toList, JsText.isWhiteSpace c = true

/-- What a declaration is to be taken for. -/
structure Lawful (env kycIssuerAddress : Option String) (result : Except String (Option WhitelistingPolicy)) :
    Prop where
  discovers : result = .ok none ↔ Blank env
  throws : (∃ message, result = .error message) ↔ ∃ value, env = some value ∧ ¬ Blank env ∧
    ((∃ name ∈ namesOf value, name ∉ whitelistingMechanism.values) ∨
      (whitelistingMechanism.none ∈ namesOf value ∧ 1 < (namesOf value).length) ∨ namesOf value = [])
  returns : ∀ policy, result = .ok (some policy) → ∃ value, env = some value ∧
    policy.configs.map (·.mechanism) = namesOf value ∧ ∀ config ∈ policy.configs,
      config.issuer = if config.mechanism = whitelistingMechanism.internalKyc then truthy kycIssuerAddress else none

variable {whitelistingMechanism : WhitelistingMechanism} {kycIssuerAddress : Option String} {value : String}

theorem trim_eq_empty_iff_blank : JsText.trim value = "" ↔ Blank (some value) := by
  rw [JsText.trim_eq_empty_iff]
  exact ⟨fun h v hv => Option.some.inj hv ▸ h, fun h => h value rfl⟩

/-- A value names nothing if it is made of commas and white space. -/
theorem namesOf_eq_nil_iff : namesOf value = [] ↔
    ∀ c ∈ value.toList, c ≠ ',' → JsText.isWhiteSpace c = true := by
  have hpieces : namesOf value = [] ↔ ∀ piece ∈ JsText.split value ',', ∀ c ∈ piece.toList,
      JsText.isWhiteSpace c = true := by
    simp only [namesOf, List.filter_eq_nil_iff, List.forall_mem_map, decide_eq_true_eq, not_not,
      JsText.trim_eq_empty_iff]
  rw [hpieces]
  constructor
  · intro h c hc hne
    obtain ⟨piece, hpiece, hmem⟩ := JsText.mem_split.mpr ⟨hc, hne⟩
    exact h piece hpiece c hmem
  · intro h piece hpiece c hc
    obtain ⟨hmem, hne⟩ := JsText.mem_split.mp ⟨piece, hpiece, hc⟩
    exact h c hmem hne

/-- The configuration of a known name. -/
def configFor (whitelistingMechanism : WhitelistingMechanism) (kycIssuerAddress : Option String)
    (name : String) : WhitelistingConfig :=
  ⟨name, if name = whitelistingMechanism.internalKyc then truthy kycIssuerAddress else none⟩

theorem configOf_known {name : String} (h : name ∈ whitelistingMechanism.values) :
    configOf whitelistingMechanism kycIssuerAddress name =
      .ok (configFor whitelistingMechanism kycIssuerAddress name) := by
  unfold configOf configFor
  rw [if_neg (not_not.mpr h)]
  cases truthy kycIssuerAddress with
  | none =>
    dsimp only
    rw [ite_self]
  | some issuer =>
    dsimp only
    split_ifs <;> rfl

theorem configOf_unknown {name : String} (h : name ∉ whitelistingMechanism.values) :
    configOf whitelistingMechanism kycIssuerAddress name = .error (unknownMechanism whitelistingMechanism name) :=
  if_pos h

theorem mapM_configOf_known {names : List String} (h : ∀ name ∈ names, name ∈ whitelistingMechanism.values) :
    names.mapM (configOf whitelistingMechanism kycIssuerAddress) =
      .ok (names.map (configFor whitelistingMechanism kycIssuerAddress)) := by
  rw [Throws.mapM_eq_ok, List.forall₂_map_right_iff, List.forall₂_same]
  exact fun name hname => configOf_known (h name hname)

theorem mapM_configOf_unknown {names : List String} (h : ∃ name ∈ names, name ∉ whitelistingMechanism.values) :
    ∃ message, names.mapM (configOf whitelistingMechanism kycIssuerAddress) = .error message := by
  cases hmap : names.mapM (configOf whitelistingMechanism kycIssuerAddress) with
  | error message => exact ⟨message, rfl⟩
  | ok configs =>
    obtain ⟨name, hname, hunknown⟩ := h
    have hall := Throws.mapM_eq_ok.mp hmap
    have hknown : ∀ n c, configOf whitelistingMechanism kycIssuerAddress n = .ok c →
        (n ∉ whitelistingMechanism.values ↔ False) := by
      intro n c hn
      refine ⟨fun hno => ?_, False.elim⟩
      rw [configOf_unknown hno] at hn
      cases hn
    obtain ⟨_, _, hfalse⟩ := (Throws.exists_mem_iff_of_forall₂ hall hknown).mp ⟨name, hname, hunknown⟩
    exact hfalse.elim

theorem policyOf_exclusive {configs : List WhitelistingConfig}
    (hnone : ∃ config ∈ configs, config.mechanism = whitelistingMechanism.none) (hlength : 1 < configs.length) :
    ∃ message, policyOf whitelistingMechanism configs = .error message := by
  match configs with
  | [] => exact absurd hlength (by simp)
  | [config] => exact absurd hlength (by simp)
  | first :: second :: configs =>
    refine ⟨_, if_pos ?_⟩
    rw [List.any_eq_true]
    obtain ⟨config, hconfig, hmechanism⟩ := hnone
    exact ⟨config, hconfig, decide_eq_true hmechanism⟩

theorem policyOf_named {configs : List WhitelistingConfig} (hne : configs ≠ [])
    (h : (∃ config ∈ configs, config.mechanism = whitelistingMechanism.none) → configs.length ≤ 1) :
    ∃ policy, policyOf whitelistingMechanism configs = .ok (some policy) ∧ policy.configs = configs := by
  match configs with
  | [] => exact absurd rfl hne
  | [config] => exact ⟨.one config, rfl, rfl⟩
  | first :: second :: configs =>
    refine ⟨.many (first :: second :: configs), if_neg fun hany => ?_, rfl⟩
    obtain ⟨config, hconfig, hmechanism⟩ := List.any_eq_true.mp hany
    have hshort := h ⟨config, hconfig, of_decide_eq_true hmechanism⟩
    simp at hshort

/-! ### Values that are not blank -/

theorem parse_eq (hblank : ¬ Blank (some value)) :
    parseAtsWhitelistingMechanisms whitelistingMechanism (some value) kycIssuerAddress =
      (namesOf value).mapM (configOf whitelistingMechanism kycIssuerAddress) >>= policyOf whitelistingMechanism :=
  if_neg (mt trim_eq_empty_iff_blank.mp hblank)

theorem parse_blank {env : Option String} (h : Blank env) :
    parseAtsWhitelistingMechanisms whitelistingMechanism env kycIssuerAddress = .ok none := by
  cases env with
  | none => rfl
  | some value => exact if_pos (trim_eq_empty_iff_blank.mpr h)

theorem parse_unknown (kycIssuerAddress : Option String) (hblank : ¬ Blank (some value))
    (h : ∃ name ∈ namesOf value, name ∉ whitelistingMechanism.values) :
    ∃ message, parseAtsWhitelistingMechanisms whitelistingMechanism (some value) kycIssuerAddress =
      .error message := by
  obtain ⟨message, hmap⟩ := mapM_configOf_unknown h
  refine ⟨message, ?_⟩
  rw [parse_eq hblank, hmap]
  rfl

theorem parse_known (kycIssuerAddress : Option String) (hblank : ¬ Blank (some value))
    (h : ∀ name ∈ namesOf value, name ∈ whitelistingMechanism.values) :
    parseAtsWhitelistingMechanisms whitelistingMechanism (some value) kycIssuerAddress =
      policyOf whitelistingMechanism ((namesOf value).map (configFor whitelistingMechanism kycIssuerAddress)) := by
  rw [parse_eq hblank, mapM_configOf_known h]
  rfl

theorem exists_configFor_iff {name : String} {names : List String} :
    (∃ config ∈ names.map (configFor whitelistingMechanism kycIssuerAddress), config.mechanism = name) ↔
      name ∈ names := by
  constructor
  · rintro ⟨config, hconfig, rfl⟩
    obtain ⟨n, hn, rfl⟩ := List.mem_map.mp hconfig
    exact hn
  · exact fun h => ⟨_, List.mem_map_of_mem h, rfl⟩

/-- The reasons to refuse a value that is not blank. -/
def Refused (whitelistingMechanism : WhitelistingMechanism) (value : String) : Prop :=
  (∃ name ∈ namesOf value, name ∉ whitelistingMechanism.values) ∨
    (whitelistingMechanism.none ∈ namesOf value ∧ 1 < (namesOf value).length) ∨ namesOf value = []

theorem lawful_of_refused {message : String} (hblank : ¬ Blank (some value))
    (h : Refused whitelistingMechanism value) :
    Lawful whitelistingMechanism (some value) kycIssuerAddress (.error message) :=
  ⟨⟨nofun, fun h => absurd h hblank⟩, ⟨fun _ => ⟨value, rfl, hblank, h⟩, fun _ => ⟨message, rfl⟩⟩, nofun⟩

theorem lawful_of_accepted {policy : WhitelistingPolicy} (hblank : ¬ Blank (some value))
    (h : ¬ Refused whitelistingMechanism value)
    (hconfigs : policy.configs = (namesOf value).map (configFor whitelistingMechanism kycIssuerAddress)) :
    Lawful whitelistingMechanism (some value) kycIssuerAddress (.ok (some policy)) := by
  refine ⟨⟨nofun, fun h => absurd h hblank⟩, ⟨nofun, ?_⟩, ?_⟩
  · rintro ⟨v, hv, -, hrefused⟩
    cases hv
    exact absurd hrefused h
  · intro p hp
    cases hp
    refine ⟨value, rfl, ?_, ?_⟩
    · rw [hconfigs, List.map_map]
      exact List.map_id _
    · rw [hconfigs, List.forall_mem_map]
      exact fun name _ => rfl

/-- A value that is not blank and names something is taken for what it declares. -/
theorem lawful_of_named (hblank : ¬ Blank (some value)) (hne : namesOf value ≠ []) :
    Lawful whitelistingMechanism (some value) kycIssuerAddress
      (parseAtsWhitelistingMechanisms whitelistingMechanism (some value) kycIssuerAddress) := by
  by_cases hunknown : ∃ name ∈ namesOf value, name ∉ whitelistingMechanism.values
  · obtain ⟨message, hparse⟩ := parse_unknown kycIssuerAddress hblank hunknown
    rw [hparse]
    exact lawful_of_refused hblank (.inl hunknown)
  have hknown : ∀ name ∈ namesOf value, name ∈ whitelistingMechanism.values := by
    simpa only [not_exists, not_and, not_not] using hunknown
  rw [parse_known kycIssuerAddress hblank hknown]
  have hlength : ((namesOf value).map (configFor whitelistingMechanism kycIssuerAddress)).length =
      (namesOf value).length := List.length_map _
  by_cases hexclusive : whitelistingMechanism.none ∈ namesOf value ∧ 1 < (namesOf value).length
  · obtain ⟨message, hpolicy⟩ := policyOf_exclusive (exists_configFor_iff.mpr hexclusive.1) (hlength ▸ hexclusive.2)
    rw [hpolicy]
    exact lawful_of_refused hblank (.inr (.inl hexclusive))
  · have hshort : (∃ config ∈ (namesOf value).map (configFor whitelistingMechanism kycIssuerAddress),
        config.mechanism = whitelistingMechanism.none) →
        ((namesOf value).map (configFor whitelistingMechanism kycIssuerAddress)).length ≤ 1 := by
      intro h
      rw [hlength]
      by_contra hlong
      exact hexclusive ⟨exists_configFor_iff.mp h, by omega⟩
    obtain ⟨policy, hpolicy, hconfigs⟩ := policyOf_named (by simpa using hne) hshort
    rw [hpolicy]
    refine lawful_of_accepted hblank ?_ hconfigs
    rintro (h | h | h)
    · exact hunknown h
    · exact hexclusive h
    · exact hne h

theorem parse_nameless (hblank : ¬ Blank (some value)) (h : namesOf value = []) :
    parseAtsWhitelistingMechanisms whitelistingMechanism (some value) kycIssuerAddress = .ok none := by
  rw [parse_eq hblank, h]
  rfl

/-- For all values of the variable, enumerations and issuers: the value is taken for what it declares
exactly if it is absent, has no comma, or has a letter that is neither a comma nor white space. A value
of commas and white space is taken for no declaration. -/
theorem parse_lawful_iff (whitelistingMechanism : WhitelistingMechanism) (env kycIssuerAddress : Option String) :
    Lawful whitelistingMechanism env kycIssuerAddress
        (parseAtsWhitelistingMechanisms whitelistingMechanism env kycIssuerAddress) ↔
      ∀ value ∈ env, ',' ∈ value.toList → ∃ c ∈ value.toList, c ≠ ',' ∧ JsText.isWhiteSpace c = false := by
  constructor
  · rintro h value rfl hcomma
    by_contra hnone
    have hblank : ¬ Blank (some value) := by
      intro hblank
      have hwhite := hblank value rfl ',' hcomma
      revert hwhite
      decide
    have hnames : namesOf value = [] := by
      refine namesOf_eq_nil_iff.mpr fun c hc hne => ?_
      by_contra hletter
      exact hnone ⟨c, hc, hne, Bool.eq_false_iff.mpr hletter⟩
    exact hblank (h.discovers.mp (parse_nameless hblank hnames))
  · intro h
    by_cases hblank : Blank env
    · rw [parse_blank hblank]
      refine ⟨⟨fun _ => hblank, fun _ => rfl⟩, ⟨nofun, ?_⟩, nofun⟩
      rintro ⟨value, -, hnot, -⟩
      exact absurd hblank hnot
    · cases env with
      | none => exact absurd nofun hblank
      | some value =>
        refine lawful_of_named hblank fun hnames => hblank fun v hv c hc => ?_
        cases hv
        have hwhite := namesOf_eq_nil_iff.mp hnames
        by_cases hcomma : c = ','
        · subst hcomma
          obtain ⟨d, hd, hne, hletter⟩ := h value rfl hc
          rw [hwhite d hd hne] at hletter
          cases hletter
        · exact hwhite c hc hcomma

/-! ### A stray comma -/

def mechanisms : WhitelistingMechanism := ⟨["none", "internal-kyc", "control-list"], "none", "internal-kyc"⟩

/-- A lone comma names no mechanism, and passes for no declaration. -/
theorem comma_discovers : ¬ ∀ (whitelistingMechanism : WhitelistingMechanism) (env kycIssuerAddress : Option String),
    Lawful whitelistingMechanism env kycIssuerAddress
      (parseAtsWhitelistingMechanisms whitelistingMechanism env kycIssuerAddress) := by
  intro h
  have hblank : ¬ Blank (some ",") := by
    intro hblank
    have hwhite := hblank "," rfl ',' (by decide)
    revert hwhite
    decide
  have hnames : namesOf "," = [] := by
    refine namesOf_eq_nil_iff.mpr fun c hc hne => absurd ?_ hne
    simpa using hc
  exact hblank ((h mechanisms (some ",") none).discovers.mp (parse_nameless hblank hnames))

end FinP2PAdapter.TokenStandards.AtsPolicy
