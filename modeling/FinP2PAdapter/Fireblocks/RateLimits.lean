import FinP2PAdapter.Library.Interrupts
import FinP2PAdapter.Library.JsNumber

/-! Calls of the Fireblocks API that are retried while they are rate limited. How often the API is called
and what comes of it is as it is meant to be for every sequence of outcomes. The wait before a retry is
not: a response without a `Retry-After` header, which is meant to be waited after for a second, is retried
after a millisecond, and a header's number is waited for in milliseconds. -/

namespace FinP2PAdapter.Fireblocks

open Interrupts

/-! ### The API -/

/-- The response of a failed request, with its `Retry-After` header. -/
structure Response where
  retryAfter : Option String
  deriving DecidableEq, Repr

structure Rejection where
  isAxiosError : Bool
  status : Option ℕ
  response : Option Response
  message : String
  deriving DecidableEq, Repr

def Rejection.isRateLimited (error : Rejection) : Bool := error.isAxiosError ∧ error.status = some 429

/-- `error.response?.headers["retry-after"]`. -/
def Rejection.retryAfter (error : Rejection) : Option String := error.response.bind (·.retryAfter)

inductive ApiEvent where
  | called
  | slept (millis : ℕ)
  deriving DecidableEq, Repr

/-- The API, and the calls of it and the waits there have been. -/
structure Session (σ : Type) where
  api : σ
  log : List ApiEvent

section Calls

variable {σ α : Type}

/-- One call of the API, which answers as it stands. -/
def call (answer : σ → Except Rejection α × σ) : Act Rejection (Session σ) α := do
  let session ← get
  let (outcome, api) := answer session.api
  set (⟨api, session.log ++ [.called]⟩ : Session σ)
  match outcome with
  | .ok response => return response
  | .error error => throw error

def sleep (delay : Float) : Act Rejection (Session σ) Unit :=
  modify fun session => { session with log := session.log ++ [.slept (JsNumber.timerDelay delay)] }

/-! ### Retrying -/

/-- `Number` of the header, which is `NaN` if there is none. -/
def Rejection.retryAfterNumber (error : Rejection) : Float :=
  match error.retryAfter with
  | none => JsNumber.NaN
  | some text => JsNumber.ofText text

/-- `Number(..) ?? 1000`. A number is never nullish, `NaN` included. -/
def Rejection.sleepCount (error : Rejection) : Float := (some error.retryAfterNumber).getD 1000

def retryIfRateLimited (apiCall : Act Rejection (Session σ) α) : ℕ → Act Rejection (Session σ) α
  | 0 => tryCatch apiCall fun error => throw error
  | retryCount + 1 => tryCatch apiCall fun error => do
    if error.isRateLimited then
      sleep error.sleepCount
      retryIfRateLimited apiCall retryCount
    else throw error

def rateLimited : Except Rejection α → Bool
  | .ok _ => false
  | .error error => error.isRateLimited

theorem rateLimited_eq_true {outcome : Except Rejection α} (h : rateLimited outcome = true) :
    ∃ error, outcome = .error error ∧ error.isRateLimited = true := by
  cases outcome with
  | ok response => cases h
  | error error => exact ⟨error, rfl, h⟩

variable {answer : σ → Except Rejection α × σ} {api api' : σ} {log : List ApiEvent}

theorem exec_call : exec (call answer) ⟨api, log⟩ = ((answer api).1, ⟨(answer api).2, log ++ [.called]⟩) := by
  simp only [call, exec_bind, exec_get, exec_set]
  cases (answer api).1 <;> rfl

theorem exec_sleep {delay : Float} :
    exec (sleep delay) ⟨api, log⟩ = (.ok (), ⟨api, log ++ [.slept (JsNumber.timerDelay delay)]⟩) := rfl

/-- An outcome that is no rate limit is the result, and so is any without a retry left. -/
theorem exec_retry_settled {outcome : Except Rejection α} (retryCount : ℕ) (h : answer api = (outcome, api'))
    (hsettled : retryCount = 0 ∨ rateLimited outcome = false) :
    exec (retryIfRateLimited (call answer) retryCount) ⟨api, log⟩ = (outcome, ⟨api', log ++ [.called]⟩) := by
  have hcall : exec (call answer) ⟨api, log⟩ = (outcome, ⟨api', log ++ [.called]⟩) := by rw [exec_call, h]
  cases outcome with
  | ok response => cases retryCount <;> exact exec_catch_ok hcall
  | error error =>
    cases retryCount with
    | zero => exact (exec_catch_error hcall).trans exec_throw
    | succ retryCount =>
      have hother : error.isRateLimited = false := hsettled.resolve_left (Nat.succ_ne_zero _)
      refine (exec_catch_error hcall).trans ?_
      simp only [hother, Bool.false_eq_true, if_false, exec_throw]

/-- After a rate limit there is a wait, and one retry less. -/
theorem exec_retry_limited {error : Rejection} (retryCount : ℕ) (h : answer api = (.error error, api'))
    (hlimited : error.isRateLimited = true) :
    exec (retryIfRateLimited (call answer) (retryCount + 1)) ⟨api, log⟩ =
      exec (retryIfRateLimited (call answer) retryCount)
        ⟨api', log ++ [.called, .slept (JsNumber.timerDelay error.sleepCount)]⟩ := by
  have hcall : exec (call answer) ⟨api, log⟩ = (.error error, ⟨api', log ++ [.called]⟩) := by rw [exec_call, h]
  refine (exec_catch_error hcall).trans ?_
  simp only [hlimited, if_true]
  rw [exec_bind_ok exec_sleep, List.append_assoc]
  rfl

end Calls

/-! ### Sequences of outcomes -/

/-- Calls with a wait between each two. -/
def spaced (waits : List ℕ) : List ApiEvent := .called :: waits.flatMap fun millis => [.slept millis, .called]

theorem spaced_cons (millis : ℕ) (waits : List ℕ) :
    spaced (millis :: waits) = [.called, .slept millis] ++ spaced waits := rfl

theorem spaced_injective : Function.Injective spaced := by
  intro waits
  induction waits with
  | nil =>
    rintro (_ | ⟨millis, waits⟩) h
    · rfl
    · cases h
  | cons millis waits ih =>
    rintro (_ | ⟨millis', waits'⟩) h
    · cases h
    · rw [spaced_cons, spaced_cons] at h
      obtain ⟨hfirst, hrest⟩ := List.append_inj h rfl
      cases hfirst
      rw [ih hrest]

theorem count_called_spaced (waits : List ℕ) : (spaced waits).count .called = waits.length + 1 := by
  induction waits with
  | nil => rfl
  | cons millis waits ih =>
    rw [spaced_cons, List.count_append, ih, List.length_cons]
    show 1 + _ = _
    omega

section Outcomes

variable {α : Type} (outcomes : ℕ → Except Rejection α)

/-- For how long there is a wait after an outcome, if it is retried. -/
def waitAfter : Except Rejection α → ℕ
  | .ok _ => 0
  | .error error => JsNumber.timerDelay error.sleepCount

/-- An API whose calls have these outcomes, one after the other. -/
def inOrder (n : ℕ) : Except Rejection α × ℕ := (outcomes n, n + 1)

/-- `retryIfRateLimited` ends with the outcome of some number of retries within its budget: all before
are rate limits, and it is none or the budget is used up. -/
theorem exec_retry (retryCount n : ℕ) (log : List ApiEvent) : ∃ k ≤ retryCount,
    (∀ i < k, rateLimited (outcomes (n + i)) = true) ∧
    (k = retryCount ∨ rateLimited (outcomes (n + k)) = false) ∧
    exec (retryIfRateLimited (call (inOrder outcomes)) retryCount) ⟨n, log⟩ =
      (outcomes (n + k), ⟨n + k + 1, log ++ spaced ((List.range k).map fun i => waitAfter (outcomes (n + i)))⟩) := by
  induction retryCount generalizing n log with
  | zero =>
    exact ⟨0, le_rfl, fun i hi => absurd hi (Nat.not_lt_zero i), .inl rfl, exec_retry_settled 0 rfl (.inl rfl)⟩
  | succ retryCount ih =>
    cases hlimited : rateLimited (outcomes n) with
    | false =>
      exact ⟨0, Nat.zero_le _, fun i hi => absurd hi (Nat.not_lt_zero i), .inr hlimited,
        exec_retry_settled _ rfl (.inr hlimited)⟩
    | true =>
      obtain ⟨error, houtcome, herror⟩ := rateLimited_eq_true hlimited
      obtain ⟨k, hk, hbefore, hend, hexec⟩ :=
        ih (n + 1) (log ++ [.called, .slept (JsNumber.timerDelay error.sleepCount)])
      have hshift : ∀ i, n + 1 + i = n + (i + 1) := fun i => Nat.add_right_comm n 1 i
      refine ⟨k + 1, Nat.succ_le_succ hk, ?_, ?_, ?_⟩
      · rintro (_ | i) hi
        · exact hlimited
        · rw [← hshift]
          exact hbefore i (Nat.lt_of_succ_lt_succ hi)
      · rw [← hshift]
        exact hend.imp (congrArg (· + 1)) id
      · have hfirst : inOrder outcomes n = (.error error, n + 1) := by rw [inOrder, houtcome]
        rw [exec_retry_limited retryCount hfirst herror, hexec, List.range_succ_eq_map, List.map_cons, spaced_cons]
        simp only [hshift, List.map_map, Function.comp_def, Nat.add_zero, houtcome, waitAfter, List.append_assoc]

/-- The waits of a run with so many retries. -/
theorem getElem?_waits {k i millis : ℕ} :
    ((List.range k).map fun i => waitAfter (outcomes i))[i]? = some millis ↔
      i < k ∧ waitAfter (outcomes i) = millis := by
  rw [List.getElem?_map, Option.map_eq_some_iff]
  constructor
  · rintro ⟨j, hj, hwait⟩
    obtain ⟨hi, rfl⟩ := List.getElem?_eq_some_iff.mp hj
    rw [List.getElem_range] at hwait
    exact ⟨by simpa using hi, hwait⟩
  · rintro ⟨hi, hwait⟩
    exact ⟨i, List.getElem?_range hi, hwait⟩

end Outcomes

/-! ### What retrying is meant to do -/

/-- What a number in a `Retry-After` header counts: seconds, as the header is defined, or milliseconds, as
it is slept for. -/
inductive HeaderUnit where
  | seconds
  | milliseconds
  deriving DecidableEq, Repr

def HeaderUnit.millis : HeaderUnit → ℕ
  | .seconds => 1000
  | .milliseconds => 1

/-- Each form a header's date may have begins with the day of the week. -/
def isHttpDate (text : String) : Bool :=
  ["Mon", "Tue", "Wed", "Thu", "Fri", "Sat", "Sun"].any fun day => day.toList.isPrefixOf text.toList

/-- The interval to wait for, in milliseconds: what the header states, if it states any, and a second if
there is no header. `left` is how long it is until a date. -/
def interval (unit : HeaderUnit) (left : String → ℕ) : Option String → Option ℕ
  | none => some 1000
  | some text =>
    match JsText.digitsValue text with
    | some n => some (n * unit.millis)
    | none => if isHttpDate text then some (left text) else none

section Law

variable {α : Type} (unit : HeaderUnit) (left : ℕ → String → ℕ) (outcomes : ℕ → Except Rejection α)
  (retryCount : ℕ)

/-- `retryIfRateLimited`, and what has been called and waited for. -/
def runOn : Except Rejection α × Session ℕ :=
  exec (retryIfRateLimited (call (inOrder outcomes)) retryCount) ⟨0, []⟩

/-- For any outcomes of the calls, by their numbers. The shortest wait is a millisecond. -/
structure Lawful : Prop where
  calls_le : (runOn outcomes retryCount).2.log.count .called ≤ retryCount + 1
  returns : ∀ k ≤ retryCount, (∀ i < k, rateLimited (outcomes i) = true) →
    ∀ response, outcomes k = .ok response → (runOn outcomes retryCount).1 = .ok response
  rethrows : ∀ k ≤ retryCount, (∀ i < k, rateLimited (outcomes i) = true) →
    ∀ error, outcomes k = .error error → error.isRateLimited = false →
      (runOn outcomes retryCount).1 = .error error
  exhausted : (∀ i ≤ retryCount, rateLimited (outcomes i) = true) →
    ∀ error, outcomes retryCount = .error error → (runOn outcomes retryCount).1 = .error error
  waits : ∃ waits, (runOn outcomes retryCount).2.log = spaced waits ∧
    ∀ i millis, waits[i]? = some millis → ∀ error, outcomes i = .error error →
      ∀ due, interval unit (left i) error.retryAfter = some due → millis = max due 1

/-! ### When the waits are as they are meant to be -/

/-- There is a header, and it states no wait, or a number of milliseconds that a timer takes, or a date that
has come. -/
def Heeded (unit : HeaderUnit) (left : String → ℕ) : Option String → Prop
  | none => False
  | some text =>
    match JsText.digitsValue text with
    | some n => n = 0 ∨ unit = .milliseconds ∧ n ≤ JsNumber.timeoutMax
    | none => isHttpDate text → left text ≤ 1

theorem ofText_httpDate {text : String} (h : isHttpDate text = true) : JsNumber.ofText text = JsNumber.NaN := by
  have hletters : ∀ day ∈ ["Mon", "Tue", "Wed", "Thu", "Fri", "Sat", "Sun"],
      day.toList.head?.any fun c => c.isAlpha ∧ c ≠ 'I' := by decide
  obtain ⟨day, hday, hprefix⟩ := List.any_eq_true.mp h
  obtain ⟨rest, hrest⟩ := List.isPrefixOf_iff_prefix.mp hprefix
  have hfirst := hletters day hday
  cases hcs : day.toList with
  | nil =>
    rw [hcs] at hfirst
    cases hfirst
  | cons c cs =>
    rw [hcs] at hfirst hrest
    obtain ⟨hc, hI⟩ := of_decide_eq_true hfirst
    exact JsNumber.ofText_letter hrest.symm hc hI

/-- A whole number is waited for as it is, if a timer takes it. -/
theorem wait_whole_iff (unit : HeaderUnit) (n : ℕ) :
    JsNumber.timerDelay (JsNumber.decimal n 0) = max (n * unit.millis) 1 ↔
      n = 0 ∨ unit = .milliseconds ∧ n ≤ JsNumber.timeoutMax := by
  rw [JsNumber.timerDelay_whole]
  cases unit with
  | seconds =>
    show _ = max (n * 1000) 1 ↔ _
    simp only [reduceCtorEq, false_and, or_false]
    split_ifs <;> omega
  | milliseconds =>
    show _ = max (n * 1) 1 ↔ _
    have hmax : JsNumber.timeoutMax = 2147483647 := rfl
    rw [and_iff_right rfl]
    split_ifs <;> omega

/-- The wait after an error is the one that is due exactly if the header is heeded. -/
theorem wait_due_iff (unit : HeaderUnit) (left : String → ℕ) (error : Rejection) :
    (∀ due, interval unit left error.retryAfter = some due →
      JsNumber.timerDelay error.sleepCount = max due 1) ↔ Heeded unit left error.retryAfter := by
  unfold Rejection.sleepCount Rejection.retryAfterNumber
  rw [Option.getD_some]
  cases error.retryAfter with
  | none =>
    show (∀ due, some 1000 = some due → JsNumber.timerDelay JsNumber.NaN = max due 1) ↔ False
    rw [JsNumber.timerDelay_NaN]
    simp
  | some text =>
    dsimp only
    unfold interval Heeded
    dsimp only
    cases hdigits : JsText.digitsValue text with
    | some n =>
      rw [JsNumber.ofText_digits hdigits]
      simp only [Option.some.injEq, forall_eq']
      exact wait_whole_iff unit n
    | none =>
      dsimp only
      by_cases hdate : isHttpDate text = true
      · rw [if_pos hdate, ofText_httpDate hdate, JsNumber.timerDelay_NaN, imp_iff_right hdate]
        simp only [Option.some.injEq, forall_eq']
        omega
      · rw [if_neg hdate]
        exact ⟨fun _ h => absurd h hdate, fun _ due hdue => by cases hdue⟩

variable {unit left outcomes retryCount}

/-- The outcomes that are retried, within the budget. -/
def Retried (outcomes : ℕ → Except Rejection α) (retryCount i : ℕ) : Prop :=
  i < retryCount ∧ ∀ j ≤ i, rateLimited (outcomes j) = true

theorem exists_run (outcomes : ℕ → Except Rejection α) (retryCount : ℕ) : ∃ k ≤ retryCount,
    (∀ i, i < k ↔ Retried outcomes retryCount i) ∧
    (k = retryCount ∨ rateLimited (outcomes k) = false) ∧
    runOn outcomes retryCount =
      (outcomes k, ⟨k + 1, spaced ((List.range k).map fun i => waitAfter (outcomes i))⟩) := by
  obtain ⟨k, hk, hbefore, hend, hexec⟩ := exec_retry outcomes retryCount 0 []
  simp only [Nat.zero_add, List.nil_append] at hbefore hend hexec
  refine ⟨k, hk, fun i => ⟨fun hi => ?_, fun hi => ?_⟩, hend, hexec⟩
  · exact ⟨by omega, fun j hj => hbefore j (by omega)⟩
  · by_contra hge
    have hlimited := hi.2 k (Nat.le_of_not_lt hge)
    rcases hend with hused | hsettled
    · have := hi.1
      omega
    · rw [hlimited] at hsettled
      cases hsettled

/-- The first outcome that is not retried is the result. -/
theorem runOn_fst {k : ℕ} (hk : k ≤ retryCount) (hbefore : ∀ i < k, rateLimited (outcomes i) = true)
    (hend : k = retryCount ∨ rateLimited (outcomes k) = false) : (runOn outcomes retryCount).1 = outcomes k := by
  obtain ⟨k', hk', hretried, hend', hrun⟩ := exists_run outcomes retryCount
  have hlast : ∀ i, Retried outcomes retryCount i → i ≠ k := by
    rintro i ⟨hi, hall⟩ rfl
    rcases hend with rfl | hsettled
    · exact hi.ne rfl
    · rw [hall i le_rfl] at hsettled
      cases hsettled
  have hle : ¬ k' < k := by
    intro hlt
    have hself := (hretried k').mpr ⟨lt_of_lt_of_le hlt hk, fun j hj => hbefore j (lt_of_le_of_lt hj hlt)⟩
    exact hself.ne rfl
  have hge : ¬ k < k' := fun hlt => hlast k ((hretried k).mp hlt) rfl
  rw [hrun, le_antisymm (Nat.le_of_not_lt hge) (Nat.le_of_not_lt hle)]

/-- For every sequence of outcomes, every budget and either unit of the header: `retryIfRateLimited` does
what it is meant to exactly if the header of each response that is retried is heeded. -/
theorem lawful_iff_heeded : Lawful unit left outcomes retryCount ↔ ∀ i, Retried outcomes retryCount i →
    ∀ error, outcomes i = .error error → Heeded unit (left i) error.retryAfter := by
  obtain ⟨k, hk, hretried, -, hrun⟩ := exists_run outcomes retryCount
  constructor
  · intro h i hi error herror
    obtain ⟨waits, hlog, hdue⟩ := h.waits
    rw [hrun] at hlog
    have hwait : waits[i]? = some (JsNumber.timerDelay error.sleepCount) := by
      rw [← spaced_injective hlog]
      exact (getElem?_waits outcomes).mpr ⟨(hretried i).mpr hi, by rw [herror, waitAfter]⟩
    exact (wait_due_iff unit (left i) error).mp (hdue i _ hwait error herror)
  · intro h
    refine ⟨?_, ?_, ?_, ?_, ?_⟩
    · rw [hrun, count_called_spaced, List.length_map, List.length_range]
      exact Nat.succ_le_succ hk
    · intro k' hk' hbefore response hresponse
      rw [runOn_fst hk' hbefore (.inr (by rw [hresponse]; rfl)), hresponse]
    · intro k' hk' hbefore error herror hother
      rw [runOn_fst hk' hbefore (.inr (by rw [herror]; exact hother)), herror]
    · intro hall error herror
      rw [runOn_fst le_rfl (fun i hi => hall i hi.le) (.inl rfl), herror]
    · refine ⟨(List.range k).map fun i => waitAfter (outcomes i), by rw [hrun], ?_⟩
      intro i millis hget error herror
      obtain ⟨hi, rfl⟩ := (getElem?_waits outcomes).mp hget
      rw [herror, waitAfter]
      exact (wait_due_iff unit (left i) error).mpr (h i ((hretried i).mp hi) error herror)

end Law

/-! ### A response without a header -/

/-- A rate limit without a `Retry-After` header, and then a response. -/
def headerless : ℕ → Except Rejection Unit
  | 0 => .error ⟨true, some 429, some ⟨none⟩, "Request failed with status code 429"⟩
  | _ => .ok ()

/-- The retry comes after a millisecond, not after a second. -/
theorem headerless_burst : (runOn headerless 30).2.log = [.called, .slept 1, .called] ∧
    ¬ Lawful .seconds (fun _ _ => 0) headerless 30 ∧ ¬ Lawful .milliseconds (fun _ _ => 0) headerless 30 := by
  have hlog : (runOn headerless 30).2.log = spaced [1] := by rfl
  have hbroken : ∀ unit, ¬ Lawful unit (fun _ _ => 0) headerless 30 := by
    intro unit h
    obtain ⟨waits, hwaits, hdue⟩ := h.waits
    cases spaced_injective (hwaits.symm.trans hlog)
    have hsecond := hdue 0 1 rfl _ rfl 1000 rfl
    revert hsecond
    decide
  exact ⟨hlog, hbroken _, hbroken _⟩

end FinP2PAdapter.Fireblocks
