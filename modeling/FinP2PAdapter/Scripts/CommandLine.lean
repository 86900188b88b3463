import FinP2PAdapter.Accounts.AccountResolver
import FinP2PAdapter.Library.JsMap
import FinP2PAdapter.Library.JsText
import Mathlib

/-! The scripts' options. A parameter is given on the command line under its name in kebab case, by its
environment variable or by a default, in this order, and the usage text shows each parameter's flag. A flag
that is followed by another flag, by an empty text or by nothing, is a switch. Names and flags are ASCII. -/

namespace FinP2PAdapter.Scripts.CommandLine

open Accounts (truthy truthy_eq_some)

structure ParamDefinition where
  name : String
  envVar : String
  required : Bool
  description : Option String
  defaultValue : Option String
  deriving DecidableEq, Repr

/-! ### The two cases of a name -/

/-- Every hyphen with a small letter after it becomes the capital letter. -/
def camel : List Char → List Char
  | '-' :: c :: cs => if c.isLower then c.toUpper :: camel cs else '-' :: camel (c :: cs)
  | c :: cs => c :: camel cs
  | [] => []

def toCamelCase (str : String) : String := String.ofList (camel str.toList)

/-- A hyphen is put before every capital letter. -/
def hyphenate (c : Char) : List Char := if c.isUpper then ['-', c] else [c]

def toKebabCase (str : String) : String := (String.ofList (str.toList.flatMap hyphenate)).toLower

/-- No hyphen stands right before a small letter. -/
def Unhyphenated (name : String) : Prop := name.toList.IsChain fun a b => ¬ (a = '-' ∧ b.isLower = true)

instance (name : String) : Decidable (Unhyphenated name) :=
  inferInstanceAs (Decidable (name.toList.IsChain fun a b => ¬ (a = '-' ∧ b.isLower = true)))

theorem camel_cons {c : Char} (h : c ≠ '-') (cs : List Char) : camel (c :: cs) = c :: camel cs := by
  conv_lhs => unfold camel
  split
  · simp_all
  · simp_all
  · simp_all

theorem camel_hyphen_small {c : Char} (h : c.isLower = true) (cs : List Char) :
    camel ('-' :: c :: cs) = c.toUpper :: camel cs := by
  rw [camel, if_pos h]

theorem camel_hyphen_other {c : Char} (h : c.isLower = false) (cs : List Char) :
    camel ('-' :: c :: cs) = '-' :: camel (c :: cs) := by
  rw [camel, if_neg (by simp [h])]

/-- What is written for a name starts with a small letter exactly where the name does. -/
theorem exists_kebab_cons (d : Char) (ds : List Char) : ∃ e rest,
    ((d :: ds).flatMap hyphenate).map Char.toLower = e :: rest ∧ e.isLower = d.isLower := by
  rw [List.flatMap_cons, List.map_append]
  cases hd : d.isUpper with
  | true =>
    refine ⟨'-', [d.toLower] ++ (ds.flatMap hyphenate).map Char.toLower, ?_, ?_⟩
    · rw [hyphenate, if_pos hd]
      rfl
    · exact ((Bool.not_eq_true _).mp (Char.not_isLower_of_isUpper hd)).symm
  | false =>
    refine ⟨d, (ds.flatMap hyphenate).map Char.toLower, ?_, rfl⟩
    rw [hyphenate, if_neg (by simp [hd]), List.map_cons, List.map_nil, List.singleton_append,
      Char.toLower_eq_of_not_isUpper (by simp [hd])]

theorem camel_toLower_flatMap_hyphenate (cs : List Char) :
    camel ((cs.flatMap hyphenate).map Char.toLower) = cs ↔
      cs.IsChain fun a b => ¬ (a = '-' ∧ b.isLower = true) := by
  induction cs with
  | nil => simp [camel]
  | cons c cs ih =>
    rw [List.flatMap_cons, List.map_append]
    cases hup : c.isUpper with
    | true =>
      -- a capital is written as a hyphen and its small letter
      have hsmall : c.toLower.isLower = true := by
        rw [Char.isLower_toLower_eq_isAlpha, Char.isAlpha, hup, Bool.true_or]
      have hback : c.toLower.toUpper = c := by
        rw [Char.toUpper_toLower_eq_toUpper, Char.toUpper_eq_of_not_isLower (Char.not_isLower_of_isUpper hup)]
      have hc : c ≠ '-' := by
        rintro rfl
        cases hup
      rw [hyphenate, if_pos hup, List.map_cons, List.map_cons, List.map_nil,
        List.cons_append, List.singleton_append, show '-'.toLower = '-' from rfl,
        camel_hyphen_small hsmall, hback, List.cons.injEq]
      simp [List.isChain_cons, hc, ih]
    | false =>
      have hkeep : c.toLower = c := Char.toLower_eq_of_not_isUpper (by simp [hup])
      rw [hyphenate, if_neg (by simp [hup]), List.map_cons, List.map_nil, List.singleton_append, hkeep]
      by_cases hc : c = '-'
      · subst hc
        cases cs with
        | nil => simp [camel]
        | cons d ds =>
          obtain ⟨e, rest, hrest, he⟩ := exists_kebab_cons d ds
          rw [hrest] at ih ⊢
          cases hsmall : e.isLower with
          | true =>
            rw [camel_hyphen_small hsmall, List.cons.injEq]
            have hne : e.toUpper ≠ '-' := by
              intro heq
              have := Char.isUpper_toUpper_eq_isAlpha e
              rw [heq, Char.isAlpha, hsmall, Bool.or_true] at this
              cases this
            simp [hne, List.isChain_cons, ← he, hsmall]
          | false =>
            rw [camel_hyphen_other hsmall, List.cons.injEq]
            simp [List.isChain_cons, ← he, hsmall, ih]
      · rw [camel_cons hc, List.cons.injEq]
        simp [List.isChain_cons, hc, ih]

/-- The flag of a name is read as the name unless the name has a hyphen before a small letter. -/
theorem toCamelCase_toKebabCase (name : String) : toCamelCase (toKebabCase name) = name ↔ Unhyphenated name := by
  rw [toCamelCase, toKebabCase, toList_toLower, String.toList_ofList, Unhyphenated,
    ← camel_toLower_flatMap_hyphenate, ← String.toList_inj, String.toList_ofList]

/-! ### The arguments -/

def isFlag (arg : String) : Bool := "--".toList.isPrefixOf arg.toList

/-- `arg.slice(2)` -/
def flagName (arg : String) : String := String.ofList (arg.toList.drop 2)

/-- The keys that every object inherits. -/
def inheritedKeys : List String :=
  ["constructor", "__defineGetter__", "__defineSetter__", "hasOwnProperty", "__lookupGetter__", "__lookupSetter__",
    "isPrototypeOf", "propertyIsEnumerable", "toString", "valueOf", "__proto__", "toLocaleString"]

/-- What an object has under a key: a text of its own, or what it inherits. -/
inductive Value where
  | text (text : String)
  | inherited (key : String)
  deriving DecidableEq, Repr

/-- An object's value under a key, by the texts of its own. -/
def property (own : String → Option String) (key : String) : Option Value :=
  match own key with
  | some text => some (.text text)
  | none => if key ∈ inheritedKeys then some (.inherited key) else none

/-- Texts that are assigned to the prototype are ignored. -/
def assign {α : Type} (object : JsMap String α) (key : String) (value : α) : JsMap String α :=
  if key = "__proto__" then object else object.set key value

/-- What is parsed so far, and the arguments left. -/
def parseFrom (parsed : JsMap String String) : List String → JsMap String String
  | [] => parsed
  | [arg] => if isFlag arg then assign parsed (toCamelCase (flagName arg)) "true" else parsed
  | arg :: value :: rest =>
    if isFlag arg then
      if value ≠ "" ∧ isFlag value = false then parseFrom (assign parsed (toCamelCase (flagName arg)) value) rest
      else parseFrom (assign parsed (toCamelCase (flagName arg)) "true") (value :: rest)
    else parseFrom parsed (value :: rest)

def parseArgs (args : List String) : JsMap String String := parseFrom .empty args

/-- Only an empty text is falsy. -/
def Value.truthy? : Option Value → Option Value
  | some (.text "") => none
  | value => value

/-- The value of a parameter: `cliValue || envValue || param.defaultValue`. -/
def ParamDefinition.value (param : ParamDefinition) (args : JsMap String String)
    (env : String → Option String) : Option Value :=
  (Value.truthy? (property args.get? param.name)).or
    ((Value.truthy? (property env param.envVar)).or (param.defaultValue.map .text))

def padEnd (text : String) (width : ℕ) : String :=
  text ++ String.ofList (List.replicate (width - text.length) ' ')

def flag (name : String) : String := "--" ++ toKebabCase name

/-- The text after which the script exits, line by line. -/
def printUsage (scriptName : String) (params : List ParamDefinition) (missingParams : List String) :
    List String :=
  let lines := params.flatMap fun param =>
    let required := if param.required then " (required)" else ""
    let defaultVal := match truthy param.defaultValue with
      | some value => s!" [default: {value}]"
      | none => ""
    let description := param.description.getD ""
    ["  " ++ padEnd (flag param.name) 25 ++ " " ++ description ++ required ++ defaultVal,
      "  " ++ padEnd " " 25 ++ " Env: " ++ param.envVar]
  let missing := if missingParams = [] then [] else
    ["\nMissing required parameters: " ++ ", ".intercalate missingParams]
  [s!"\nUsage: node {scriptName} [options]\n", "Options:"] ++ lines ++ missing ++
    ["\nExamples:",
      s!"  node {scriptName} " ++ " ".intercalate (params.map fun param => flag param.name ++ " <value>"),
      "  " ++ " ".intercalate (params.map fun param => param.envVar ++ "=<value>") ++ " node " ++ scriptName,
      ""]

/-- `path.split("/").pop() || "script.js"` -/
def scriptName (path : String) : String :=
  (truthy (JsText.split path '/').getLast?).getD "script.js"

/-- The parameters' values, or the text the script exits with. `argv` starts with the program and the
script's path. -/
def parseConfig (argv : List String) (env : String → Option String) (params : List ParamDefinition) :
    Except (List String) (JsMap String (Option Value)) :=
  let args := parseArgs (argv.drop 2)
  let missingParams := params.filter fun param => param.required && (param.value args env).isNone
  if missingParams = [] then
    .ok (params.foldl (fun config param => assign config param.name (param.value args env)) .empty)
  else
    .error (printUsage (scriptName (argv.getD 1 "")) params (missingParams.map ParamDefinition.name))

/-! ### The command line the usage text shows -/

/-- One option as the usage text shows it. A switch has no value, or an empty one. -/
structure Given where
  name : String
  value : Option String
  deriving DecidableEq, Repr

def Given.tokens (o : Given) : List String := flag o.name :: o.value.toList

/-- The flag is read as the name, and the value is not read as a flag. -/
structure Given.Readable (o : Given) : Prop where
  name : Unhyphenated o.name
  value : ∀ v ∈ o.value, isFlag v = false

def Given.parsed (o : Given) : String := (truthy o.value).getD "true"

/-- What is given last for a name. -/
def lastGiven (name : String) : List Given → Option String
  | [] => none
  | o :: rest => (lastGiven name rest).or (if o.name = name then some o.parsed else none)

@[simp] theorem isFlag_flag (name : String) : isFlag (flag name) = true := by
  simp [isFlag, flag, String.toList_append]

@[simp] theorem flagName_flag (name : String) : flagName (flag name) = toKebabCase name := by
  rw [flagName, flag, String.toList_append, ← String.toList_inj, String.toList_ofList]
  rfl

theorem parseFrom_switch {arg : String} (harg : isFlag arg = true) (parsed : JsMap String String)
    {rest : List String} (h : ∀ next ∈ rest.head?, isFlag next = true) :
    parseFrom parsed (arg :: rest) = parseFrom (assign parsed (toCamelCase (flagName arg)) "true") rest := by
  cases rest with
  | nil => simp [parseFrom, harg]
  | cons next rest =>
    have hnext : isFlag next = true := h next rfl
    rw [parseFrom, if_pos harg, if_neg (by simp [hnext])]

theorem parseFrom_option {arg value : String} (harg : isFlag arg = true)
    (hvalue : value ≠ "" ∧ isFlag value = false) (parsed : JsMap String String) (rest : List String) :
    parseFrom parsed (arg :: value :: rest) =
      parseFrom (assign parsed (toCamelCase (flagName arg)) value) rest := by
  rw [parseFrom, if_pos harg, if_pos hvalue]

/-- What is no flag where a flag may stand is passed over. -/
theorem parseFrom_other {arg : String} (harg : isFlag arg = false) (parsed : JsMap String String)
    (rest : List String) : parseFrom parsed (arg :: rest) = parseFrom parsed rest := by
  cases rest with
  | nil => simp [parseFrom, harg]
  | cons next rest => rw [parseFrom, if_neg (by simp [harg])]

/-- The options are read one after the other. -/
theorem parseFrom_tokens {given : List Given} (h : ∀ o ∈ given, o.Readable) (parsed : JsMap String String) :
    parseFrom parsed (given.flatMap Given.tokens) =
      given.foldl (fun m o => assign m o.name o.parsed) parsed := by
  induction given generalizing parsed with
  | nil => rfl
  | cons o given ih =>
    have hname : toCamelCase (flagName (flag o.name)) = o.name := by
      rw [flagName_flag, toCamelCase_toKebabCase]
      exact (h o List.mem_cons_self).name
    have hvalue := (h o List.mem_cons_self).value
    rw [List.flatMap_cons, Given.tokens, List.foldl_cons, ← ih fun x hx => h x (List.mem_cons_of_mem _ hx)]
    cases hv : o.value with
    | none =>
      have hrest : ∀ next ∈ (given.flatMap Given.tokens).head?, isFlag next = true := by
        cases given with
        | nil => simp
        | cons next given => simp [Given.tokens]
      have hswitch : o.parsed = "true" := by
        rw [Given.parsed, hv]
        rfl
      rw [Option.toList_none, List.cons_append, List.nil_append,
        parseFrom_switch (isFlag_flag o.name) parsed hrest, hname, hswitch]
    | some v =>
      rw [Option.toList_some, List.cons_append, List.singleton_append]
      by_cases hempty : v = ""
      · -- an empty value makes the flag a switch, and is passed over itself
        subst hempty
        have hswitch : o.parsed = "true" := by
          rw [Given.parsed, hv]
          rfl
        rw [parseFrom, if_pos (isFlag_flag o.name), if_neg (by simp), parseFrom_other (hvalue "" hv), hname, hswitch]
      · have hown : o.parsed = v := by
          rw [Given.parsed, hv, truthy_eq_some.mpr ⟨rfl, hempty⟩, Option.getD_some]
        rw [parseFrom_option (isFlag_flag o.name) ⟨hempty, hvalue v hv⟩ parsed, hname, hown]

theorem get?_assign {α : Type} (object : JsMap String α) (key : String) (value : α) {name : String}
    (hname : name ∉ inheritedKeys) :
    (assign object key value).get? name = if name = key then some value else object.get? name := by
  have hproto : name ≠ "__proto__" := by
    rintro rfl
    exact hname (by decide)
  unfold assign
  split_ifs with hkey hsame hsame
  · exact absurd (hsame.trans hkey) hproto
  · rfl
  · rw [JsMap.get?_set, if_pos hsame]
  · rw [JsMap.get?_set, if_neg hsame]

theorem get?_foldl_given (given : List Given) (parsed : JsMap String String) {name : String}
    (hname : name ∉ inheritedKeys) :
    (given.foldl (fun m o => assign m o.name o.parsed) parsed).get? name =
      (lastGiven name given).or (parsed.get? name) := by
  induction given generalizing parsed with
  | nil => rfl
  | cons o given ih =>
    rw [List.foldl_cons, ih, get?_assign _ _ _ hname, lastGiven]
    by_cases ho : o.name = name
    · cases lastGiven name given <;> simp [ho]
    · cases lastGiven name given <;> simp [ho, Ne.symm ho]

theorem parsed_ne_empty (o : Given) : o.parsed ≠ "" := by
  rw [Given.parsed]
  cases hvalue : truthy o.value with
  | none => decide
  | some v => exact (truthy_eq_some.mp hvalue).2

theorem lastGiven_ne_empty {name text : String} {given : List Given} (h : lastGiven name given = some text) :
    text ≠ "" := by
  induction given with
  | nil => cases h
  | cons o given ih =>
    rw [lastGiven] at h
    cases hlast : lastGiven name given with
    | some v =>
      rw [hlast] at h ih
      exact ih h
    | none =>
      rw [hlast, Option.none_or] at h
      split_ifs at h
      cases h
      exact parsed_ne_empty o

theorem get?_foldl_param {params : List ParamDefinition} (hnames : (params.map ParamDefinition.name).Nodup)
    (hown : ∀ param ∈ params, param.name ∉ inheritedKeys) (value : ParamDefinition → Option Value)
    (config : JsMap String (Option Value)) {param : ParamDefinition} (hparam : param ∈ params) :
    (params.foldl (fun m p => assign m p.name (value p)) config).get? param.name = some (value param) := by
  induction params using List.reverseRecOn with
  | nil => cases hparam
  | append_singleton params last ih =>
    rw [List.map_append, List.nodup_append] at hnames
    rw [List.foldl_append, List.foldl_cons, List.foldl_nil, get?_assign _ _ _ (hown param hparam)]
    rcases List.mem_append.mp hparam with hmem | hmem
    · have hne : param.name ≠ last.name :=
        hnames.2.2 param.name (List.mem_map_of_mem hmem) last.name (by simp)
      rw [if_neg hne]
      exact ih hnames.1 (fun p hp => hown p (List.mem_append_left _ hp)) hmem
    · obtain rfl := List.mem_singleton.mp hmem
      rw [if_pos rfl]

/-- Where nothing is inherited, a property is a text of the object's own. -/
theorem truthy_property {own : String → Option String} {key : String} (hkey : key ∉ inheritedKeys) :
    Value.truthy? (property own key) = (truthy (own key)).map .text := by
  unfold property
  cases hown : own key with
  | none =>
    dsimp only
    rw [if_neg hkey]
    rfl
  | some text =>
    by_cases hempty : text = ""
    · rw [hempty]
      rfl
    · rw [truthy_eq_some.mpr ⟨rfl, hempty⟩]
      unfold Value.truthy?
      split
      · rename_i heq
        cases heq
        exact absurd rfl hempty
      · rfl

/-- Neither the parameter nor its variable is named like a key that every object inherits. -/
def ParamDefinition.Own (param : ParamDefinition) : Prop :=
  param.name ∉ inheritedKeys ∧ param.envVar ∉ inheritedKeys

instance (param : ParamDefinition) : Decidable param.Own := inferInstanceAs (Decidable (_ ∧ _))

/-- The value of a parameter once the options are read. -/
theorem ParamDefinition.value_given {given : List Given} (h : ∀ o ∈ given, o.Readable)
    (env : String → Option String) {param : ParamDefinition} (hown : param.Own) :
    param.value (parseArgs (given.flatMap Given.tokens)) env =
      ((lastGiven param.name given).or ((truthy (env param.envVar)).or param.defaultValue)).map .text := by
  have hget : (parseArgs (given.flatMap Given.tokens)).get? param.name = lastGiven param.name given := by
    rw [parseArgs, parseFrom_tokens h, get?_foldl_given _ _ hown.1]
    exact Option.or_none
  rw [ParamDefinition.value, truthy_property hown.1, truthy_property hown.2, hget]
  cases hlast : lastGiven param.name given with
  | none => cases truthy (env param.envVar) <;> rfl
  | some text =>
    rw [truthy_eq_some.mpr ⟨rfl, lastGiven_ne_empty hlast⟩]
    rfl

/-- A script called the way its usage text shows, with the options in any order and given any number of
times, has for each parameter what was given last, else its environment variable, else its default. It
exits exactly when a required parameter has none of these, and names each of them. An option without a
value, or with an empty one, gives `true`. -/
theorem parseConfig_reads_usage {params : List ParamDefinition} {given : List Given}
    (hnames : (params.map ParamDefinition.name).Nodup) (hown : ∀ param ∈ params, param.Own)
    (hgiven : ∀ o ∈ given, o.Readable) (program script : String) (env : String → Option String) :
    let chosen := fun param : ParamDefinition =>
      (lastGiven param.name given).or ((truthy (env param.envVar)).or param.defaultValue)
    let missing := params.filter fun param => param.required && (chosen param).isNone
    let parsed := parseConfig (program :: script :: given.flatMap Given.tokens) env params
    (missing = [] → ∃ config, parsed = .ok config ∧
      ∀ param ∈ params, config.get? param.name = some ((chosen param).map .text)) ∧
    (missing ≠ [] → parsed =
      .error (printUsage (scriptName script) params (missing.map ParamDefinition.name))) := by
  intro chosen missing parsed
  let args := parseArgs (given.flatMap Given.tokens)
  have hvalue : ∀ param ∈ params, param.value args env = (chosen param).map .text :=
    fun param hparam => ParamDefinition.value_given hgiven env (hown param hparam)
  have hmissing : params.filter (fun param => param.required && (param.value args env).isNone) = missing := by
    refine List.filter_congr fun param hparam => ?_
    rw [hvalue param hparam, Option.isNone_map]
  have hparsed : parsed = if missing = [] then
      .ok (params.foldl (fun config param => assign config param.name (param.value args env)) .empty)
      else .error (printUsage (scriptName script) params (missing.map ParamDefinition.name)) := by
    rw [← hmissing]
    rfl
  constructor
  · intro h
    rw [hparsed, if_pos h]
    refine ⟨_, rfl, fun param hparam => ?_⟩
    rw [get?_foldl_param hnames (fun p hp => (hown p hp).1) _ .empty hparam, hvalue param hparam]
  · intro h
    rw [hparsed, if_neg h]

/-- A parameter that is named like an inherited key is never missing. -/
theorem value_inherited {param : ParamDefinition} (args : JsMap String String) (env : String → Option String)
    (hname : param.name ∈ inheritedKeys) (hnone : args.get? param.name = none) :
    param.value args env = some (.inherited param.name) := by
  have hproperty : property args.get? param.name = some (.inherited param.name) := by
    unfold property
    rw [hnone]
    exact if_pos hname
  rw [ParamDefinition.value, hproperty]
  rfl

/-- The parameters of the script that approves the operator contract. -/
def massApproveParams : List ParamDefinition := [
  ⟨"operator_pk", "OPERATOR_PRIVATE_KEY", true, some "Operator private key", none⟩,
  ⟨"rpc_url", "RPC_URL", true, some "Ethereum RPC URL", none⟩,
  ⟨"finp2p_contract_address", "FINP2P_CONTRACT_ADDRESS", true, some "FinP2P contract address", none⟩,
  ⟨"oss_url", "OSS_URL", true, some "FinP2P OSS URL", none⟩,
  ⟨"amount", "AMOUNT", true, some "Amount to approve", none⟩]

/-- An amount given twice; the contract's address and the OSS are left to the environment. -/
def approveGiven : List Given :=
  [⟨"amount", some "5"⟩, ⟨"operator_pk", some "0x01"⟩, ⟨"rpc_url", some "http://node"⟩, ⟨"amount", some "7"⟩]

def approveEnv (name : String) : Option String :=
  if name = "FINP2P_CONTRACT_ADDRESS" then some "0xc0" else if name = "OSS_URL" then some "http://oss" else none

theorem mass_approve_reads : ∃ config,
    parseConfig ("node" :: "dist/mass-approve.js" :: approveGiven.flatMap Given.tokens) approveEnv massApproveParams =
      .ok config ∧
    config.get? "amount" = some (some (.text "7")) ∧ config.get? "oss_url" = some (some (.text "http://oss")) := by
  have hreadable : ∀ o ∈ approveGiven, o.Readable := by
    simp only [approveGiven, List.forall_mem_cons]
    refine ⟨⟨?_, ?_⟩, ⟨?_, ?_⟩, ⟨?_, ?_⟩, ⟨?_, ?_⟩, by simp⟩
    all_goals decide
  have hnames : (massApproveParams.map ParamDefinition.name).Nodup := by decide
  have hown : ∀ param ∈ massApproveParams, param.Own := by decide
  obtain ⟨config, hok, hget⟩ := (parseConfig_reads_usage hnames hown hreadable
    "node" "dist/mass-approve.js" approveEnv).1 (by decide)
  refine ⟨config, hok, ?_, ?_⟩
  · exact hget ⟨"amount", "AMOUNT", true, some "Amount to approve", none⟩ (by decide)
  · exact hget ⟨"oss_url", "OSS_URL", true, some "FinP2P OSS URL", none⟩ (by decide)

end FinP2PAdapter.Scripts.CommandLine
