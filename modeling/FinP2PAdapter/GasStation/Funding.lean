import FinP2PAdapter.Library.Machine
import FinP2PAdapter.PlanApproval.GasPrefunding
import Mathlib.Data.List.Basic

/-! The funding wallet and all that draw on it. A plan approval tops up its signers one
after another, an onboarding activates one wallet, a deposit poll tops up the wallet it
is about to sign with. Each is a job that makes its funding calls in turn; the jobs know
nothing of each other. A call reads its target's balance, sends one transaction if the
balance is too small, and polls the balance until it is not. What the funding wallet
itself has is left out: any send may be refused. -/

namespace FinP2PAdapter.GasStation

open Accounts PlanApproval

/-- What `createApp` composes: the gas station's amount and the activator's, in wei, and
the mapping that approvals resolve signers by. -/
structure FundingConfig where
  amount : ℕ
  activationAmount : ℕ
  accountMapping : String → Except String (Option String)

inductive FundingCall where
  | ensureGas (walletAddress : String) (txCount : ℕ)
  | ensureActivated (address : String)
  deriving DecidableEq, Repr

namespace FundingCall

/-- The account of the chain, whatever the address's letter case. -/
def target : FundingCall → String
  | .ensureGas walletAddress _ => walletAddress.toLower
  | .ensureActivated address => address.toLower

/-- The balance needs no transaction. -/
def satisfied (cfg : FundingConfig) (balance : ℕ) : FundingCall → Bool
  | .ensureGas _ txCount => cfg.amount * max 1 txCount ≤ balance
  | .ensureActivated _ => 0 < balance

def value (cfg : FundingConfig) : FundingCall → ℕ
  | .ensureGas _ txCount => cfg.amount * max 1 txCount
  | .ensureActivated _ => cfg.activationAmount

/-- An activation asks for the funding wallet's own address before it sends. -/
def asksAddress : FundingCall → Bool
  | .ensureGas _ _ => false
  | .ensureActivated _ => true

end FundingCall

/-- Where a call is; `seen` is the balance the node has answered with. -/
inductive Phase where
  | reading (seen : Option ℕ)
  | addressing
  | sending
  | polling
  | returned
  | failed
  deriving DecidableEq, Repr

/-- `sent` if it has sent a transaction, `pending` while that has not taken effect. -/
structure Call where
  request : FundingCall
  started : ℕ
  phase : Phase
  ended : Option ℕ
  sent : Bool
  pending : Bool
  deriving DecidableEq, Repr

inductive CallEvent where
  | answered
  | read
  | addressed
  | taken
  | rejected (tookIt : Bool)
  | mined
  | observed
  | fails
  deriving DecidableEq, Repr

namespace Call

def begin (request : FundingCall) (time : ℕ) : Call :=
  ⟨request, time, .reading none, none, false, false⟩

def finish (c : Call) (phase : Phase) (time : ℕ) : Call := { c with phase := phase, ended := some time }

def send (c : Call) : Call := { c with phase := .sending, sent := true, pending := true }

/-- The steps of `ensureGas` and `ensureActivated`. A transaction may take effect at any
time after it was sent, and `sendTransaction` may reject although the node took it; a
call `fails` when another of its requests rejects, or when its polls time out. -/
def on (cfg : FundingConfig) (balance time : ℕ) (c : Call) : CallEvent → Option Call
  | .answered =>
    match c.phase with
    | .reading none => some { c with phase := .reading (some balance) }
    | _ => none
  | .read =>
    match c.phase with
    | .reading (some seen) =>
      if c.request.satisfied cfg seen then some (c.finish .returned time)
      else if c.request.asksAddress then some { c with phase := .addressing }
      else some c.send
    | _ => none
  | .addressed => if c.phase = .addressing then some c.send else none
  | .taken => if c.phase = .sending then some { c with phase := .polling } else none
  | .rejected tookIt =>
    if c.phase = .sending ∧ (tookIt ∨ c.pending) then
      some { c.finish .failed time with sent := tookIt, pending := c.pending && tookIt }
    else none
  | .mined => if c.pending then some { c with pending := false } else none
  | .observed =>
    if c.phase = .polling ∧ c.request.satisfied cfg balance then some (c.finish .returned time)
    else none
  | .fails =>
    match c.phase with
    | .reading _ | .addressing | .polling => some (c.finish .failed time)
    | _ => none

/-- The step calls `sendTransaction`. -/
def sends (cfg : FundingConfig) (c : Call) : CallEvent → Bool
  | .read =>
    match c.phase with
    | .reading (some seen) => !c.request.satisfied cfg seen && !c.request.asksAddress
    | _ => false
  | .addressed => c.phase == .addressing
  | _ => false

/-- All that a step of a call can be. -/
inductive Moves (cfg : FundingConfig) (balance time : ℕ) (c : Call) : CallEvent → Call → Prop where
  | answered (h : c.phase = .reading none) :
      Moves cfg balance time c .answered { c with phase := .reading (some balance) }
  | enough {seen : ℕ} (h : c.phase = .reading (some seen)) (hs : c.request.satisfied cfg seen = true) :
    Moves cfg balance time c .read (c.finish .returned time)
  | asks {seen : ℕ} (h : c.phase = .reading (some seen)) (ha : c.request.asksAddress = true) :
    Moves cfg balance time c .read { c with phase := .addressing }
  | sends {e : CallEvent} (h : c.sends cfg e = true) : Moves cfg balance time c e c.send
  | taken (h : c.phase = .sending) : Moves cfg balance time c .taken { c with phase := .polling }
  | rejected {tookIt : Bool} (h : c.phase = .sending) : Moves cfg balance time c (.rejected tookIt)
      { c.finish .failed time with sent := tookIt, pending := c.pending && tookIt }
  | mined (h : c.pending = true) : Moves cfg balance time c .mined { c with pending := false }
  | observed (h : c.phase = .polling) (hs : c.request.satisfied cfg balance = true) :
    Moves cfg balance time c .observed (c.finish .returned time)
  | fails (h : c.phase = .addressing ∨ c.phase = .polling ∨ ∃ seen, c.phase = .reading seen) :
    Moves cfg balance time c .fails (c.finish .failed time)

theorem moves_of_on {cfg : FundingConfig} {balance time : ℕ} {c c' : Call} {e : CallEvent}
    (h : c.on cfg balance time e = some c') : Moves cfg balance time c e c' := by
  cases e with
  | answered =>
    simp only [on] at h
    split at h
    · rename_i hp
      cases h
      exact .answered hp
    · cases h
  | read =>
    simp only [on] at h
    split at h
    · rename_i seen hp
      split_ifs at h with hs ha
      · cases h
        exact .enough hp hs
      · cases h
        exact .asks hp ha
      · cases h
        exact .sends (by simp [sends, hp, hs, ha])
    · cases h
  | addressed =>
    simp only [on, Option.ite_none_right_eq_some] at h
    obtain ⟨hp, h⟩ := h
    cases h
    exact .sends (by simp [sends, hp])
  | taken =>
    simp only [on, Option.ite_none_right_eq_some] at h
    obtain ⟨hp, h⟩ := h
    cases h
    exact .taken hp
  | rejected tookIt =>
    simp only [on, Option.ite_none_right_eq_some] at h
    obtain ⟨⟨hp, -⟩, h⟩ := h
    cases h
    exact .rejected hp
  | mined =>
    simp only [on, Option.ite_none_right_eq_some] at h
    obtain ⟨hp, h⟩ := h
    cases h
    exact .mined hp
  | observed =>
    simp only [on, Option.ite_none_right_eq_some] at h
    obtain ⟨⟨hp, hs⟩, h⟩ := h
    cases h
    exact .observed hp hs
  | fails =>
    simp only [on] at h
    split at h
    · rename_i seen hp
      cases h
      exact .fails (.inr (.inr ⟨seen, hp⟩))
    · rename_i hp
      cases h
      exact .fails (.inl hp)
    · rename_i hp
      cases h
      exact .fails (.inr (.inl hp))
    · cases h

theorem Moves.request {cfg : FundingConfig} {balance time : ℕ} {c c' : Call} {e : CallEvent}
    (h : Moves cfg balance time c e c') : c'.request = c.request := by
  cases h <;> rfl

end Call

/-! ### Jobs -/

/-- The calls a job has made, the last first, and those to come. -/
structure Job where
  plan : Option IntrospectedPlan
  made : List (ℕ × FundingCall)
  queue : List FundingCall
  deriving DecidableEq, Repr

/-- `time` counts the steps of the run; `next` is the id of the next call. -/
structure State where
  time : ℕ
  balance : String → ℕ
  next : ℕ
  calls : ℕ → Option Call
  jobs : ℕ → Option Job

/-- No call has been made yet. -/
def State.init (balance : String → ℕ) : State := ⟨0, balance, 0, fun _ => none, fun _ => none⟩

inductive Action where
  | approve (job : ℕ) (plan : IntrospectedPlan)
  | onboard (job : ℕ) (address : String)
  | poll (job : ℕ) (address : String)
  | next (job : ℕ)
  | call (id : ℕ) (e : CallEvent)
  | credited (account : String) (value : ℕ)
  | spent (account : String) (value : ℕ)
  deriving DecidableEq, Repr

/-- The top-ups of an approved plan, one for each signer. -/
def prefunding (cfg : FundingConfig) (plan : IntrospectedPlan) : List FundingCall :=
  (GasPrefundingOption.txCounts cfg.accountMapping plan).entries.map fun (address, txCount) =>
    .ensureGas address txCount

def State.begin (s : State) (job : ℕ) (plan : Option IntrospectedPlan) (queue : List FundingCall) :
    Option State :=
  match s.jobs job with
  | some _ => none
  | none => some { s with jobs := Function.update s.jobs job (some ⟨plan, [], queue⟩) }

def State.hasEnded (s : State) (id : ℕ) : Bool :=
  match s.calls id with
  | none => false
  | some c => c.ended.isSome

/-- A job goes on to its next call when the one before has ended, however it ended. -/
def State.advance (s : State) (job : ℕ) : Option State :=
  match s.jobs job with
  | none => none
  | some j =>
    match j.queue with
    | [] => none
    | request :: queue =>
      if j.made.head?.all fun (id, _) => s.hasEnded id then some { s with
        next := s.next + 1
        calls := Function.update s.calls s.next (some (Call.begin request s.time))
        jobs := Function.update s.jobs job (some ⟨j.plan, (s.next, request) :: j.made, queue⟩) }
      else none

def State.onCall (cfg : FundingConfig) (s : State) (id : ℕ) (e : CallEvent) : Option State :=
  match s.calls id with
  | none => none
  | some c =>
    (c.on cfg (s.balance c.request.target) s.time e).map fun c' => { s with
      balance := if e = .mined then
          Function.update s.balance c.request.target (s.balance c.request.target + c.request.value cfg)
        else s.balance
      calls := Function.update s.calls id (some c') }

def act (cfg : FundingConfig) (s : State) : Action → Option State
  | .approve job plan => s.begin job (some plan) (prefunding cfg plan)
  | .onboard job address => s.begin job none [.ensureActivated address]
  | .poll job address => s.begin job none [.ensureGas address 1]
  | .next job => s.advance job
  | .call id e => s.onCall cfg id e
  | .credited account value =>
    some { s with balance := Function.update s.balance account (s.balance account + value) }
  | .spent account value =>
    some { s with balance := Function.update s.balance account (s.balance account - value) }

def step (cfg : FundingConfig) (s : State) (a : Action) : Option State :=
  (act cfg s a).map fun s' => { s' with time := s.time + 1 }

/-! ### What a step can do -/

section Steps

variable {cfg : FundingConfig} {s s' : State} {a : Action}

/-- A step that concerns neither a job's list nor a call moves funds only. -/
inductive Steps (cfg : FundingConfig) (s : State) : Action → State → Prop where
  | begins {a : Action} {job : ℕ} {plan : Option IntrospectedPlan} {queue : List FundingCall}
    (ha : ∀ id e, a ≠ .call id e) (hfree : s.jobs job = none)
      (hqueue : ∀ p ∈ plan, queue = prefunding cfg p) :
    Steps cfg s a
      { s with time := s.time + 1, jobs := Function.update s.jobs job (some ⟨plan, [], queue⟩) }
  | advances {job : ℕ} {j : Job} {request : FundingCall} {queue : List FundingCall}
      (hjob : s.jobs job = some j)
    (hqueue : j.queue = request :: queue) : Steps cfg s (.next job) { s with
      time := s.time + 1
      next := s.next + 1
      calls := Function.update s.calls s.next (some (Call.begin request s.time))
      jobs := Function.update s.jobs job (some ⟨j.plan, (s.next, request) :: j.made, queue⟩) }
  | moves {id : ℕ} {e : CallEvent} {c c' : Call} (hc : s.calls id = some c)
    (hmoves : c.Moves cfg (s.balance c.request.target) s.time e c') : Steps cfg s (.call id e) { s with
      time := s.time + 1
      balance := if e = .mined then
          Function.update s.balance c.request.target (s.balance c.request.target + c.request.value cfg)
        else s.balance
      calls := Function.update s.calls id (some c') }
  | credited {account : String} {value : ℕ} : Steps cfg s (.credited account value) { s with
      time := s.time + 1
      balance := Function.update s.balance account (s.balance account + value) }
  | spent {account : String} {value : ℕ} : Steps cfg s (.spent account value) { s with
      time := s.time + 1
      balance := Function.update s.balance account (s.balance account - value) }

theorem steps_of_begin {job : ℕ} {plan : Option IntrospectedPlan} {queue : List FundingCall} {t : State}
    (h : s.begin job plan queue = some t) (ha : ∀ id e, a ≠ .call id e)
    (hqueue : ∀ p ∈ plan, queue = prefunding cfg p) : Steps cfg s a { t with time := s.time + 1 } := by
  unfold State.begin at h
  cases hfree : s.jobs job with
  | some j => simp [hfree] at h
  | none =>
    simp only [hfree, Option.some.injEq] at h
    rw [← h]
    exact .begins ha hfree hqueue

theorem steps_of_step (h : step cfg s a = some s') : Steps cfg s a s' := by
  obtain ⟨t, ht, rfl⟩ := Option.map_eq_some_iff.mp h
  cases a with
  | approve job plan => exact steps_of_begin ht nofun (by simp)
  | onboard job address => exact steps_of_begin ht nofun (by simp)
  | poll job address => exact steps_of_begin ht nofun (by simp)
  | next job =>
    simp only [act, State.advance] at ht
    cases hjob : s.jobs job with
    | none => simp [hjob] at ht
    | some j =>
      cases hqueue : j.queue with
      | nil => simp [hjob, hqueue] at ht
      | cons request queue =>
        simp only [hjob, hqueue, Option.ite_none_right_eq_some, Option.some.injEq] at ht
        rw [← ht.2]
        exact .advances hjob hqueue
  | call id e =>
    simp only [act, State.onCall] at ht
    cases hc : s.calls id with
    | none => simp [hc] at ht
    | some c =>
      simp only [hc, Option.map_eq_some_iff] at ht
      obtain ⟨c', hon, rfl⟩ := ht
      exact .moves hc (Call.moves_of_on hon)
  | credited account value =>
    cases ht
    exact .credited
  | spent account value =>
    cases ht
    exact .spent

end Steps

end FinP2PAdapter.GasStation
