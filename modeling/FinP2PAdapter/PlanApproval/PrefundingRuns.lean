import FinP2PAdapter.Library.Effects
import FinP2PAdapter.PlanApproval.GasPrefunding

/-! The option that prefunds gas as it runs. The account mapping and the gas station may reject, and
may answer differently each time they are asked. Whatever fails, `apply` returns, and it asks for
the gas of each address that a signing source was resolved to once, with the number of its
instructions. -/

namespace FinP2PAdapter.PlanApproval

open Accounts Effects Tallies

inductive PrefundingEvent where
  | resolveAccount (finId : String) (answer : Except String (Option String))
  | ensureGas (address : String) (txCount : ℕ) (answer : Except String Unit)

abbrev PrefundingRun (α : Type) := Op String PrefundingEvent α

/-- What the option was constructed with; each answer may depend on all that has happened. -/
structure GasPrefundingOption where
  gasStation : Option (String → ℕ → List PrefundingEvent → Except String Unit)
  accountMapping : String → List PrefundingEvent → Except String (Option String)

namespace GasPrefundingOption

variable (option : GasPrefundingOption)

def resolveAccount (finId : String) : PrefundingRun (Option String) :=
  .emit (fun history => .resolveAccount finId (option.accountMapping finId history))
    (option.accountMapping finId)

/-- The `finId` that is resolved for an instruction. -/
def sourceToResolve (instruction : IntrospectedInstruction) : Option String :=
  if sourceSigns instruction then truthy instruction.sourceFinId else none

/-- One turn of the first loop: a resolution that fails is skipped. -/
def countInstruction (txCounts : JsMap String ℕ) (instruction : IntrospectedInstruction) :
    PrefundingRun (JsMap String ℕ) :=
  match sourceToResolve instruction with
  | none => pure txCounts
  | some sourceFinId =>
    Op.orElse (do
      let address ← option.resolveAccount sourceFinId
      return match truthy address with
        | none => txCounts
        | some address => tally txCounts address) fun _ => txCounts

/-- One turn of the second loop: a top-up that fails is skipped. -/
def topUp (ensureGas : String → ℕ → List PrefundingEvent → Except String Unit) (entry : String × ℕ) :
    PrefundingRun Unit :=
  Op.orElse (.emit (fun history => .ensureGas entry.1 entry.2 (ensureGas entry.1 entry.2 history))
    (ensureGas entry.1 entry.2)) fun _ => ()

def apply (plan : IntrospectedPlan) : PrefundingRun Unit :=
  match option.gasStation with
  | none => pure ()
  | some ensureGas => do
    let txCounts ← plan.instructions.foldlM option.countInstruction JsMap.empty
    txCounts.entries.forM (topUp ensureGas)

end GasPrefundingOption

/-! ### What a run did -/

/-- The lookups of a run, with their answers. -/
def resolutions : List PrefundingEvent → List (String × Except String (Option String)) :=
  List.filterMap fun
    | .resolveAccount finId answer => some (finId, answer)
    | .ensureGas .. => none

/-- The calls of the gas station. -/
def topUps : List PrefundingEvent → List (String × ℕ) :=
  List.filterMap fun
    | .resolveAccount .. => none
    | .ensureGas address txCount _ => some (address, txCount)

/-- The address a lookup gave. -/
def resolvedTo (answer : Except String (Option String)) : Option String :=
  match answer with
  | .ok address => truthy address
  | .error _ => none

@[simp] theorem resolutions_append (events more : List PrefundingEvent) :
    resolutions (events ++ more) = resolutions events ++ resolutions more := List.filterMap_append

@[simp] theorem topUps_append (events more : List PrefundingEvent) :
    topUps (events ++ more) = topUps events ++ topUps more := List.filterMap_append

/-- The addresses that lookups gave, once for each. -/
def signers (lookups : List (String × Except String (Option String))) : List String :=
  lookups.filterMap fun lookup => resolvedTo lookup.2

namespace GasPrefundingOption

/-- The first loop looks up the sources of the instructions in turn and counts the addresses. -/
structure Counts (option : GasPrefundingOption) (instructions : List IntrospectedInstruction)
    (txCounts : JsMap String ℕ) (result : Except String (JsMap String ℕ))
    (events : List PrefundingEvent) : Prop where
  returns : result = .ok ((signers (resolutions events)).foldl tally txCounts)
  quiet : topUps events = []
  asked : (resolutions events).map Prod.fst = instructions.filterMap sourceToResolve
  answered : ∀ lookup ∈ resolutions events, ∃ history,
    lookup.2 = option.accountMapping lookup.1 history

variable {option : GasPrefundingOption}

theorem ensures_resolveAccount {finId : String} : Ensures (option.resolveAccount finId)
    fun answer events => events = [.resolveAccount finId answer] ∧
      ∃ history, answer = option.accountMapping finId history :=
  Ensures.emit fun history => ⟨rfl, history, rfl⟩

theorem ensures_countInstruction {txCounts : JsMap String ℕ} {instruction : IntrospectedInstruction} :
    Ensures (option.countInstruction txCounts instruction) (Counts option [instruction] txCounts) := by
  unfold countInstruction
  cases hs : sourceToResolve instruction with
  | none => exact .pure ⟨rfl, rfl, by simp [hs, resolutions], by simp [resolutions]⟩
  | some sourceFinId =>
    have hbody : Ensures (do
        let address ← option.resolveAccount sourceFinId
        return match truthy address with
          | none => txCounts
          | some address => tally txCounts address)
        fun result events => ∃ answer, events = [.resolveAccount sourceFinId answer] ∧
          (∃ history, answer = option.accountMapping sourceFinId history) ∧
          result = answer.map fun address => match truthy address with
            | none => txCounts
            | some address => tally txCounts address := by
      refine ensures_resolveAccount.bind ?_ ?_
      · rintro e events ⟨hevents, hanswer⟩
        exact ⟨.error e, hevents, hanswer, rfl⟩
      · rintro address events ⟨hevents, hanswer⟩
        exact .pure ⟨.ok address, by rw [hevents]; rfl, hanswer, rfl⟩
    have hcounts : ∀ answer, (∃ history, answer = option.accountMapping sourceFinId history) →
        ∀ result, result = .ok ((signers [(sourceFinId, answer)]).foldl tally txCounts) →
          Counts option [instruction] txCounts result [.resolveAccount sourceFinId answer] := by
      intro answer hanswer result hresult
      exact ⟨hresult, rfl, by simp [hs, resolutions], by simpa [resolutions] using hanswer⟩
    refine hbody.orElse ?_ ?_
    · rintro counted events ⟨answer, rfl, hanswer, hresult⟩
      apply hcounts answer hanswer
      cases answer with
      | error e => cases hresult
      | ok address =>
        rw [hresult]
        cases ht : truthy address <;> simp [signers, resolvedTo, Except.map, ht]
    · rintro e events ⟨answer, rfl, hanswer, hresult⟩
      apply hcounts answer hanswer
      cases answer with
      | error e' => rfl
      | ok address => cases hresult

theorem ensures_countAll (instructions : List IntrospectedInstruction) (txCounts : JsMap String ℕ) :
    Ensures (instructions.foldlM option.countInstruction txCounts)
      (Counts option instructions txCounts) := by
  induction instructions generalizing txCounts with
  | nil => exact .pure ⟨rfl, rfl, rfl, by simp [resolutions]⟩
  | cons instruction instructions ih =>
    rw [List.foldlM_cons]
    refine ensures_countInstruction.bind ?_ ?_
    · intro e events hfirst
      cases hfirst.returns
    · intro counted events hfirst
      refine (ih counted).mono ?_
      intro result more hrest
      refine ⟨?_, ?_, ?_, ?_⟩
      · have hcounted := Except.ok.inj hfirst.returns
        rw [hrest.returns, hcounted, resolutions_append, signers, signers, signers,
          List.filterMap_append, List.foldl_append]
      · rw [topUps_append, hfirst.quiet, hrest.quiet]
        rfl
      · rw [resolutions_append, List.map_append, hfirst.asked, hrest.asked, ← List.filterMap_append]
        rfl
      · intro lookup hlookup
        rw [resolutions_append] at hlookup
        rcases List.mem_append.mp hlookup with hold | hnew
        · exact hfirst.answered lookup hold
        · exact hrest.answered lookup hnew

theorem ensures_topUp {ensureGas : String → ℕ → List PrefundingEvent → Except String Unit}
    {entry : String × ℕ} :
    Ensures (topUp ensureGas entry) fun result events =>
      result = .ok () ∧ resolutions events = [] ∧ topUps events = [entry] := by
  unfold topUp
  have hcall : Ensures (Op.emit (fun history => PrefundingEvent.ensureGas entry.1 entry.2
        (ensureGas entry.1 entry.2 history)) (ensureGas entry.1 entry.2))
      fun answer events => events = [.ensureGas entry.1 entry.2 answer] := .emit fun _ => rfl
  refine hcall.orElse ?_ ?_
  · rintro u events rfl
    exact ⟨rfl, rfl, rfl⟩
  · rintro e events rfl
    exact ⟨rfl, rfl, rfl⟩

/-- The second loop calls for every entry, whatever the calls before it answered. -/
theorem ensures_topUpAll (ensureGas : String → ℕ → List PrefundingEvent → Except String Unit)
    (entries : List (String × ℕ)) :
    Ensures (entries.forM (topUp ensureGas)) fun result events =>
      result = .ok () ∧ resolutions events = [] ∧ topUps events = entries := by
  induction entries with
  | nil => exact .pure ⟨rfl, rfl, rfl⟩
  | cons entry entries ih =>
    show Ensures (topUp ensureGas entry >>= fun _ => entries.forM (topUp ensureGas)) _
    refine ensures_topUp.bind ?_ ?_
    · rintro e events ⟨hresult, -⟩
      cases hresult
    · rintro u events ⟨-, hres, htop⟩
      refine ih.mono ?_
      rintro result more ⟨hresult, hres', htop'⟩
      refine ⟨hresult, ?_, ?_⟩
      · rw [resolutions_append, hres, hres']
        rfl
      · rw [topUps_append, htop, htop']
        rfl

/-- A run looks up the sources in turn, then calls for the count of each address. -/
structure Applies (option : GasPrefundingOption) (plan : IntrospectedPlan) (result : Except String Unit)
    (events : List PrefundingEvent) : Prop where
  returns : result = .ok ()
  asked : (resolutions events).map Prod.fst = plan.instructions.filterMap sourceToResolve
  answered : ∀ lookup ∈ resolutions events, ∃ history,
    lookup.2 = option.accountMapping lookup.1 history
  calls : topUps events = (tallies (signers (resolutions events))).entries

theorem ensures_apply {ensureGas : String → ℕ → List PrefundingEvent → Except String Unit}
    (hg : option.gasStation = some ensureGas) (plan : IntrospectedPlan) :
    Ensures (option.apply plan) (Applies option plan) := by
  unfold apply
  rw [hg]
  refine (ensures_countAll plan.instructions JsMap.empty).bind ?_ ?_
  · intro e events hcounts
    cases hcounts.returns
  · intro txCounts events hcounts
    refine (ensures_topUpAll ensureGas txCounts.entries).mono ?_
    rintro result more ⟨hresult, hres, htop⟩
    have hlookups : resolutions (events ++ more) = resolutions events := by
      rw [resolutions_append, hres, List.append_nil]
    refine ⟨hresult, ?_, ?_, ?_⟩
    · rw [hlookups]
      exact hcounts.asked
    · rw [hlookups]
      exact hcounts.answered
    · rw [topUps_append, hcounts.quiet, htop, hlookups, Except.ok.inj hcounts.returns]
      rfl

end GasPrefundingOption

/-! ### What is asked of the gas station -/

/-- The address is that of so many of the instructions whose source was resolved. -/
def instructionsOf (lookups : List (String × Except String (Option String))) (address : String) : ℕ :=
  lookups.countP fun lookup => resolvedTo lookup.2 == some address

theorem mem_topUps_of_applies {option : GasPrefundingOption} {plan : IntrospectedPlan}
    {result : Except String Unit} {events : List PrefundingEvent}
    (h : option.Applies plan result events) {address : String} {txCount : ℕ} :
    (address, txCount) ∈ topUps events ↔
      0 < txCount ∧ txCount = instructionsOf (resolutions events) address := by
  rw [h.calls, mem_tallies, signers, List.count_filterMap]
  rfl

/-- With a mapping that always answers alike, the calls are the plan's counts. -/
theorem topUps_of_steady {option : GasPrefundingOption} {plan : IntrospectedPlan}
    {result : Except String Unit} {events : List PrefundingEvent}
    {accountMapping : String → Except String (Option String)}
    (hsteady : ∀ finId history, option.accountMapping finId history = accountMapping finId)
    (h : option.Applies plan result events) :
    topUps events = (GasPrefundingOption.txCounts accountMapping plan).entries := by
  have hsigner : ∀ instruction, GasPrefundingOption.signer accountMapping instruction =
      (GasPrefundingOption.sourceToResolve instruction).bind fun finId =>
        resolvedTo (accountMapping finId) := by
    intro instruction
    unfold GasPrefundingOption.signer GasPrefundingOption.sourceToResolve
    split_ifs
    · cases truthy instruction.sourceFinId with
      | none => rfl
      | some finId =>
        simp only [Option.bind_some, resolvedTo]
        cases accountMapping finId <;> rfl
    · rfl
  have hsigners : signers (resolutions events) =
      plan.instructions.filterMap (GasPrefundingOption.signer accountMapping) := by
    have hanswer : ∀ lookup ∈ resolutions events,
        resolvedTo lookup.2 = resolvedTo (accountMapping lookup.1) := by
      intro lookup hlookup
      obtain ⟨history, hl⟩ := h.answered lookup hlookup
      rw [hl, hsteady]
    calc signers (resolutions events)
        = (resolutions events).filterMap fun lookup => resolvedTo (accountMapping lookup.1) :=
          List.filterMap_congr hanswer
      _ = ((resolutions events).map Prod.fst).filterMap fun finId => resolvedTo (accountMapping finId) := by
          rw [List.filterMap_map]
          rfl
      _ = plan.instructions.filterMap (GasPrefundingOption.signer accountMapping) := by
          rw [h.asked, List.filterMap_filterMap]
          exact List.filterMap_congr fun instruction _ => (hsigner instruction).symm
  rw [h.calls, hsigners, GasPrefundingOption.txCounts_eq_tallies]

/-- `apply` returns whatever fails. With a gas station it has looked up the source of each local
transfer, hold and redeem that names one, and then calls once for each address a lookup gave, with
the number of those lookups. Neither the failures of top-ups nor the order of the instructions
change the calls: a run with the same lookups in any order makes the same ones. -/
theorem gas_asked_once_per_signer (option : GasPrefundingOption) (plan : IntrospectedPlan)
    (history : List PrefundingEvent) :
    ∃ events, option.apply plan history = (.ok (), history ++ events) ∧
      (option.gasStation = none → events = []) ∧
      (option.gasStation ≠ none →
        (resolutions events).map Prod.fst =
          plan.instructions.filterMap GasPrefundingOption.sourceToResolve ∧
        ((topUps events).map Prod.fst).Nodup ∧
        (∀ address txCount, (address, txCount) ∈ topUps events ↔
          0 < txCount ∧ txCount = instructionsOf (resolutions events) address) ∧
        ∀ (other : GasPrefundingOption) (plan' : IntrospectedPlan) (history' events' : List PrefundingEvent),
          other.gasStation ≠ none → other.apply plan' history' = (.ok (), history' ++ events') →
            (resolutions events).Perm (resolutions events') →
              ∀ call, call ∈ topUps events ↔ call ∈ topUps events') := by
  have happlies : ∀ (option : GasPrefundingOption) (plan : IntrospectedPlan)
      (history : List PrefundingEvent), option.gasStation ≠ none → ∃ events,
        option.apply plan history = (.ok (), history ++ events) ∧
          option.Applies plan (.ok ()) events := by
    intro option plan history hg
    obtain ⟨ensureGas, hg⟩ := Option.ne_none_iff_exists'.mp hg
    obtain ⟨events, hlog, happlies⟩ := GasPrefundingOption.ensures_apply hg plan history
    have hresult := happlies.returns
    rw [hresult] at happlies
    exact ⟨events, Prod.ext hresult hlog, happlies⟩
  by_cases hg : option.gasStation = none
  · have hquiet : option.apply plan history = (.ok (), history) := by
      unfold GasPrefundingOption.apply
      rw [hg]
      rfl
    exact ⟨[], by rw [hquiet, List.append_nil], fun _ => rfl, fun hsome => absurd hg hsome⟩
  · obtain ⟨events, hrun, h⟩ := happlies option plan history hg
    refine ⟨events, hrun, fun hnone => absurd hnone hg, fun _ => ⟨h.asked, ?_, ?_, ?_⟩⟩
    · rw [h.calls]
      exact (tallies _).nodup
    · intro address txCount
      exact mem_topUps_of_applies h
    · intro other plan' history' events' hg' hrun' hperm call
      obtain ⟨found, hfound, h'⟩ := happlies other plan' history' hg'
      have hevents : events' = found := by
        rw [hrun', Prod.mk.injEq] at hfound
        exact List.append_cancel_left hfound.2
      rw [hevents] at hperm ⊢
      rw [h.calls, h'.calls]
      exact mem_tallies_congr (hperm.filterMap _)

/-! ### A plan of two investors -/

def signedInstruction (finId : String) : IntrospectedInstruction :=
  ⟨some 1, some "transfer", ["bank-us"], true, some finId, none, none, none, some "asset-1", some "1.0"⟩

/-- Bob signs twice. -/
def twoSigners : IntrospectedPlan where
  planId := "plan"
  orgId := "bank-us"
  raw := ⟨.absent⟩
  instructions := [signedInstruction "alice", signedInstruction "bob", signedInstruction "bob"]

/-- The top-up of one address fails, the mapping answers with the finId. -/
def failingFor (failing : String) : GasPrefundingOption where
  gasStation := some fun address _ _ => if address = failing then .error "funding tx failed" else .ok ()
  accountMapping finId _ := .ok (some finId)

/-- A top-up that fails and the other order change nothing of the calls. -/
theorem failing_top_up_skips_none : ∃ events events',
    (failingFor "").apply twoSigners [] = (.ok (), events) ∧
    (failingFor "bob").apply { twoSigners with instructions := twoSigners.instructions.reverse } [] =
      (.ok (), events') ∧
    topUps events = [("alice", 1), ("bob", 2)] ∧ ∀ call, call ∈ topUps events ↔ call ∈ topUps events' := by
  obtain ⟨events, hrun, -, h⟩ := gas_asked_once_per_signer (failingFor "") twoSigners []
  obtain ⟨events', hrun', -, h'⟩ := gas_asked_once_per_signer (failingFor "bob")
    { twoSigners with instructions := twoSigners.instructions.reverse } []
  obtain ⟨-, -, -, hsame⟩ := h nofun
  have hg : (failingFor "bob").gasStation ≠ none := nofun
  rw [List.nil_append] at hrun
  have hevents : events = ((failingFor "").apply twoSigners []).2 := by rw [hrun]
  have hevents' : events' = ((failingFor "bob").apply
      { twoSigners with instructions := twoSigners.instructions.reverse } []).2 := by rw [hrun']; rfl
  refine ⟨events, events', hrun, hrun', ?_, hsame _ _ _ _ hg hrun' ?_⟩
  · rw [hevents]
    decide
  · have hlookups : resolutions events' = (resolutions events).reverse := by
      rw [hevents, hevents']
      rfl
    rw [hlookups]
    exact (List.reverse_perm _).symm

end FinP2PAdapter.PlanApproval
