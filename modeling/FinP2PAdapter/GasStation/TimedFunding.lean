import FinP2PAdapter.GasStation.Funding
import FinP2PAdapter.Library.Machine
import FinP2PAdapter.Library.Polling
import Mathlib.Data.Nat.Find

/-! The two funding calls with their clocks. After its transaction each reads the balance once a second until
the transaction shows, for a minute. A top-up counts the minute from the end of its send, an activation from
before it. Their steps are steps of the untimed calls. -/

namespace FinP2PAdapter.GasStation

open Machine Polling

def gasFundingTimeoutMs : ℕ := 60000

def gasFundingPollIntervalMs : ℕ := 1000

/-- What the funding wallet's provider and signer answer to one call, and when: before the send, after it, and
before each round of the loop. -/
structure FundingAnswers where
  balance : Except String ℕ
  address : Except String String
  started : ℕ
  hash : Except String String
  sentAt : ℕ
  clock : ℕ → ℕ
  balances : ℕ → Except String ℕ

/-- Time passes, in each round at least the interval. -/
structure FundingAnswers.Timely (answers : FundingAnswers) : Prop where
  sending : answers.started ≤ answers.sentAt
  waiting : answers.sentAt ≤ answers.clock 0
  rounds : ∀ n, answers.clock n + gasFundingPollIntervalMs ≤ answers.clock (n + 1)

section Calls

variable (cfg : FundingConfig) (answers : FundingAnswers)

/-- `while (Date.now() < deadline)`: the balance is read until the transaction shows in it. -/
def awaitBalance (request : FundingCall) (deadline fuel : ℕ) : Option (Except String (Unit ⊕ ℕ)) :=
  pollUntil answers.clock deadline (fun balance => if request.satisfied cfg balance then some () else none)
    answers.balances fuel

/-- The balance that was read last. -/
def lastBalance (first : ℕ) : ℕ → ℕ
  | 0 => first
  | rounds + 1 => (answers.balances rounds).toOption.getD first

def ensureGas (walletAddress : String) (txCount fuel : ℕ) : Option (Except String Unit) :=
  match answers.balance with
  | .error e => some (.error e)
  | .ok balance =>
    if (FundingCall.ensureGas walletAddress txCount).satisfied cfg balance then some (.ok ())
    else
      match answers.hash with
      | .error e => some (.error e)
      | .ok _ =>
        (awaitBalance cfg answers (.ensureGas walletAddress txCount) (answers.sentAt + gasFundingTimeoutMs)
          fuel).map fun
        | .error e => .error e
        | .ok (.inl _) => .ok ()
        | .ok (.inr rounds) =>
          let balance := lastBalance answers balance rounds
          .error s!"Gas top-up to {walletAddress} did not reflect on-chain after {gasFundingTimeoutMs}ms (last balance: {balance})"

/-- The hash of the activation's transaction, or none if the address was active. -/
def ensureActivated (address : String) (fuel : ℕ) : Option (Except String (Option String)) :=
  match answers.balance with
  | .error e => some (.error e)
  | .ok balance =>
    if (FundingCall.ensureActivated address).satisfied cfg balance then some (.ok none)
    else
      match answers.address with
      | .error e => some (.error e)
      | .ok _ =>
        match answers.hash with
        | .error e => some (.error e)
        | .ok hash =>
          (awaitBalance cfg answers (.ensureActivated address) (answers.started + gasFundingTimeoutMs) fuel).map fun
          | .error e => .error e
          | .ok (.inl _) => .ok (some hash)
          | .ok (.inr _) =>
            .error s!"Activation tx {hash} to {address} did not reflect on-chain after {gasFundingTimeoutMs}ms"

/-- The transaction shows in a read of a round that began before the deadline, and every read before that succeeds. -/
def Reflects (request : FundingCall) (deadline : ℕ) : Prop :=
  ∃ k, (∀ i < k, ∃ balance, answers.balances i = .ok balance) ∧ answers.clock k < deadline ∧
    ∃ balance, answers.balances k = .ok balance ∧ request.satisfied cfg balance = true

end Calls

section Ends

variable (cfg : FundingConfig) {answers : FundingAnswers} (request : FundingCall) {deadline : ℕ}

theorem awaitBalance_isSome (h : answers.Timely) (hdeadline : deadline ≤ answers.clock 0 + gasFundingTimeoutMs) :
    ∃ result, awaitBalance cfg answers request deadline 61 = some result :=
  Option.isSome_iff_exists.mp (pollUntil_isSome 60 h.rounds hdeadline)

theorem clock_mono (h : answers.Timely) {i k : ℕ} (hik : i ≤ k) : answers.clock i ≤ answers.clock k := by
  induction k, hik using Nat.le_induction with
  | base => exact Nat.le_refl _
  | succ k _ ih => exact Nat.le_trans ih (Nat.le_trans (Nat.le_add_right _ _) (h.rounds k))

/-- The loop sees the transaction exactly if it shows in time. -/
theorem awaitBalance_eq_inl (h : answers.Timely) (hdeadline : deadline ≤ answers.clock 0 + gasFundingTimeoutMs) :
    awaitBalance cfg answers request deadline 61 = some (.ok (.inl ())) ↔ Reflects cfg answers request deadline := by
  unfold awaitBalance
  rw [pollUntil_eq_some_iff]
  constructor
  · rintro ⟨k, -, hbefore, htime, balance, hbalance, hsettles⟩
    refine ⟨k, fun i hi => ?_, htime, balance, hbalance, ?_⟩
    · obtain ⟨-, b, hb, -⟩ := hbefore i hi
      exact ⟨b, hb⟩
    · by_contra hnot
      dsimp only at hsettles
      rw [if_neg hnot] at hsettles
      cases hsettles
  · intro hreflects
    -- the first read that shows the transaction
    classical
    obtain ⟨hbefore, htime, balance, hbalance, hsatisfied⟩ := Nat.find_spec hreflects
    set k := Nat.find hreflects with hk
    refine ⟨k, ?_, fun i hi => ?_, htime, balance, hbalance, if_pos hsatisfied⟩
    · have hround := clock_ge h.rounds k
      unfold gasFundingTimeoutMs at hdeadline
      unfold gasFundingPollIntervalMs at hround
      omega
    · obtain ⟨b, hb⟩ := hbefore i hi
      have htimely : answers.clock i < deadline := lt_of_le_of_lt (clock_mono h (Nat.le_of_lt hi)) htime
      refine ⟨htimely, b, hb, if_neg fun hsat => ?_⟩
      exact Nat.find_min hreflects hi ⟨fun j hj => hbefore j (Nat.lt_trans hj hi), htimely, b, hb, hsat⟩

end Ends

/-! ### The course of a call -/

section Course

/-- It asks for a transaction and gets one. -/
structure Sends (cfg : FundingConfig) (answers : FundingAnswers) (request : FundingCall) : Prop where
  short : ∃ balance, answers.balance = .ok balance ∧ request.satisfied cfg balance = false
  addressed : request.asksAddress = true → ∃ address, answers.address = .ok address
  sent : ∃ hash, answers.hash = .ok hash

/-- All that a call can come to. -/
inductive Course (cfg : FundingConfig) (answers : FundingAnswers) (request : FundingCall) (deadline fuel : ℕ) :
    Option (Except String Unit) → Prop where
  | unread {e : String} (h : answers.balance = .error e) : Course cfg answers request deadline fuel (some (.error e))
  | enough {balance : ℕ} (h : answers.balance = .ok balance) (hs : request.satisfied cfg balance = true) :
    Course cfg answers request deadline fuel (some (.ok ()))
  | unaddressed {balance : ℕ} {e : String} (h : answers.balance = .ok balance)
      (hs : request.satisfied cfg balance = false) (hasks : request.asksAddress = true)
    (haddress : answers.address = .error e) : Course cfg answers request deadline fuel (some (.error e))
  | refused {balance : ℕ} {e : String} (h : answers.balance = .ok balance)
      (hs : request.satisfied cfg balance = false)
      (haddress : request.asksAddress = true → ∃ address, answers.address = .ok address)
    (hhash : answers.hash = .error e) : Course cfg answers request deadline fuel (some (.error e))
  | waits (h : Sends cfg answers request) (hwait : awaitBalance cfg answers request deadline fuel = none) :
    Course cfg answers request deadline fuel none
  | shows (h : Sends cfg answers request)
      (hwait : awaitBalance cfg answers request deadline fuel = some (.ok (.inl ()))) :
    Course cfg answers request deadline fuel (some (.ok ()))
  | unseen {result : Except String (Unit ⊕ ℕ)} {e : String} (h : Sends cfg answers request)
      (hwait : awaitBalance cfg answers request deadline fuel = some result) (hlate : result ≠ .ok (.inl ())) :
    Course cfg answers request deadline fuel (some (.error e))

variable (cfg : FundingConfig) (answers : FundingAnswers)

theorem course_of_ensureGas (walletAddress : String) (txCount fuel : ℕ) :
    Course cfg answers (.ensureGas walletAddress txCount) (answers.sentAt + gasFundingTimeoutMs) fuel
      (ensureGas cfg answers walletAddress txCount fuel) := by
  unfold ensureGas
  cases hbalance : answers.balance with
  | error e => exact .unread hbalance
  | ok balance =>
    dsimp only
    split_ifs with hs
    · exact .enough hbalance hs
    have hshort := Bool.eq_false_iff.mpr hs
    cases hhash : answers.hash with
    | error e => exact .refused hbalance hshort nofun hhash
    | ok hash =>
      have hsends : Sends cfg answers (.ensureGas walletAddress txCount) :=
        ⟨⟨balance, hbalance, hshort⟩, nofun, hash, hhash⟩
      cases hwait : awaitBalance cfg answers (.ensureGas walletAddress txCount)
          (answers.sentAt + gasFundingTimeoutMs) fuel with
      | none => exact .waits hsends hwait
      | some result =>
        rcases result with e | ⟨⟨⟩⟩ | rounds
        · exact .unseen hsends hwait nofun
        · exact .shows hsends hwait
        · exact .unseen hsends hwait nofun

theorem course_of_ensureActivated (address : String) (fuel : ℕ) :
    Course cfg answers (.ensureActivated address) (answers.started + gasFundingTimeoutMs) fuel
      ((ensureActivated cfg answers address fuel).map fun result => result.map fun _ => ()) := by
  unfold ensureActivated
  cases hbalance : answers.balance with
  | error e => exact .unread hbalance
  | ok balance =>
    dsimp only
    split_ifs with hs
    · exact .enough hbalance hs
    have hshort := Bool.eq_false_iff.mpr hs
    cases haddress : answers.address with
    | error e => exact .unaddressed hbalance hshort rfl haddress
    | ok from_ =>
      cases hhash : answers.hash with
      | error e => exact .refused hbalance hshort (fun _ => ⟨from_, haddress⟩) hhash
      | ok hash =>
        have hsends : Sends cfg answers (.ensureActivated address) :=
          ⟨⟨balance, hbalance, hshort⟩, fun _ => ⟨from_, haddress⟩, hash, hhash⟩
        dsimp only
        cases hwait : awaitBalance cfg answers (.ensureActivated address) (answers.started + gasFundingTimeoutMs)
            fuel with
        | none => exact .waits hsends hwait
        | some result =>
          rcases result with e | ⟨⟨⟩⟩ | rounds
          · exact .unseen hsends hwait nofun
          · exact .shows hsends hwait
          · exact .unseen hsends hwait nofun

variable {cfg answers} {request : FundingCall} {deadline : ℕ}

/-- A call always comes to an end. -/
theorem Course.isSome {result : Option (Except String Unit)} (hc : Course cfg answers request deadline 61 result)
    (h : answers.Timely) (hdeadline : deadline ≤ answers.clock 0 + gasFundingTimeoutMs) : ∃ r, result = some r := by
  cases hc with
  | waits _ hwait =>
    obtain ⟨result, hresult⟩ := awaitBalance_isSome cfg request h hdeadline
    rw [hwait] at hresult
    cases hresult
  | _ => exact ⟨_, rfl⟩

theorem Sends.not_enough (h : Sends cfg answers request) :
    ¬ ∃ balance, answers.balance = .ok balance ∧ request.satisfied cfg balance = true := by
  rintro ⟨b, hb, hsb⟩
  obtain ⟨b', hb', hsb'⟩ := h.short
  rw [hb] at hb'
  cases hb'
  rw [hsb] at hsb'
  cases hsb'

/-- It returns exactly if no transaction is needed, or one is sent and shows in time. -/
theorem Course.ok_iff {r : Except String Unit} (hc : Course cfg answers request deadline 61 (some r))
    (h : answers.Timely) (hdeadline : deadline ≤ answers.clock 0 + gasFundingTimeoutMs) :
    r = .ok () ↔ (∃ balance, answers.balance = .ok balance ∧ request.satisfied cfg balance = true) ∨
      (Sends cfg answers request ∧ Reflects cfg answers request deadline) := by
  have hreflects := awaitBalance_eq_inl cfg request h hdeadline
  cases hc with
  | unread hbalance =>
    refine iff_of_false nofun ?_
    rintro (⟨b, hb, -⟩ | ⟨⟨⟨b, hb, -⟩, -, -⟩, -⟩) <;> rw [hbalance] at hb <;> cases hb
  | enough hbalance hs => exact iff_of_true rfl (.inl ⟨_, hbalance, hs⟩)
  | unaddressed hbalance hs hasks haddress =>
    refine iff_of_false nofun ?_
    rintro (⟨b, hb, hsb⟩ | ⟨⟨-, hok, -⟩, -⟩)
    · rw [hbalance] at hb
      cases hb
      rw [hs] at hsb
      cases hsb
    · obtain ⟨address, hok⟩ := hok hasks
      rw [haddress] at hok
      cases hok
  | refused hbalance hs _ hhash =>
    refine iff_of_false nofun ?_
    rintro (⟨b, hb, hsb⟩ | ⟨⟨-, -, hash, hok⟩, -⟩)
    · rw [hbalance] at hb
      cases hb
      rw [hs] at hsb
      cases hsb
    · rw [hhash] at hok
      cases hok
  | shows hsends hwait => exact iff_of_true rfl (.inr ⟨hsends, hreflects.mp hwait⟩)
  | unseen hsends hwait hlate =>
    refine iff_of_false nofun ?_
    rintro (henough | ⟨-, hshows⟩)
    · exact hsends.not_enough henough
    · rw [hreflects.mpr hshows, Option.some.injEq] at hwait
      exact hlate hwait.symm

/-! ### Its steps -/

/-- A call and its events, each at a time and a balance of its own. -/
def alone (cfg : FundingConfig) (c : Call) (event : ℕ × ℕ × CallEvent) : Option Call :=
  c.on cfg event.1 event.2.1 event.2.2

section Steps

variable (begun : ℕ)

theorem reach_read (balance : ℕ) : Reach (alone cfg) (Call.begin request begun)
    { Call.begin request begun with phase := .reading (some balance) } :=
  .single (a := (balance, begun, .answered)) trivial rfl

theorem reach_addressing {balance : ℕ} (hs : request.satisfied cfg balance = false)
    (hasks : request.asksAddress = true) :
    Reach (alone cfg) (Call.begin request begun) { Call.begin request begun with phase := .addressing } := by
  refine .tail (reach_read begun balance) (a := (balance, begun, .read)) trivial ?_
  simp [alone, Call.on, Call.begin, hs, hasks]

theorem reach_send {balance : ℕ} (hs : request.satisfied cfg balance = false) :
    Reach (alone cfg) (Call.begin request begun) (Call.begin request begun).send := by
  cases hasks : request.asksAddress with
  | true => exact .tail (reach_addressing begun hs hasks) (a := (balance, begun, .addressed)) trivial rfl
  | false =>
    refine .tail (reach_read begun balance) (a := (balance, begun, .read)) trivial ?_
    simp [alone, Call.on, Call.begin, Call.send, hs, hasks]

theorem reach_polling {balance : ℕ} (hs : request.satisfied cfg balance = false) :
    Reach (alone cfg) (Call.begin request begun)
      { (Call.begin request begun).send with phase := .polling, pending := false } :=
  .tail (.tail (reach_send begun hs) (a := (balance, begun, .taken)) trivial rfl) (a := (balance, begun, .mined))
    trivial rfl

/-- Where a call that has come to `result` stands. -/
def EndsAs (cfg : FundingConfig) (answers : FundingAnswers) (request : FundingCall) (result : Except String Unit)
    (c : Call) : Prop :=
  c.phase = (match result with | .ok _ => .returned | .error _ => .failed) ∧
    (c.sent = true ↔ Sends cfg answers request)

/-- What comes of a call is what its steps, as the interleaved runs take them, can lead to. -/
theorem Course.reach {fuel : ℕ} {result : Except String Unit}
    (hc : Course cfg answers request deadline fuel (some result)) :
    ∃ c, Reach (alone cfg) (Call.begin request begun) c ∧ EndsAs cfg answers request result c := by
  cases hc with
  | unread hbalance =>
    refine ⟨_, .single (a := (0, begun, .fails)) trivial rfl, rfl, iff_of_false Bool.false_ne_true ?_⟩
    rintro ⟨⟨b, hb, -⟩, -, -⟩
    rw [hbalance] at hb
    cases hb
  | @enough balance hbalance hs =>
    refine ⟨(Call.begin request begun).finish .returned begun, .tail (reach_read begun balance)
      (a := (balance, begun, .read)) trivial ?_, rfl, iff_of_false Bool.false_ne_true ?_⟩
    · simp [alone, Call.on, Call.begin, Call.finish, hs]
    · intro hsends
      exact hsends.not_enough ⟨balance, hbalance, hs⟩
  | unaddressed hbalance hs hasks haddress =>
    refine ⟨_, .tail (reach_addressing begun hs hasks) (a := (0, begun, .fails)) trivial rfl, rfl,
      iff_of_false Bool.false_ne_true ?_⟩
    rintro ⟨-, hok, -⟩
    obtain ⟨address, hok⟩ := hok hasks
    rw [haddress] at hok
    cases hok
  | refused hbalance hs _ hhash =>
    refine ⟨_, .tail (reach_send begun hs) (a := (0, begun, .rejected false)) trivial rfl, rfl,
      iff_of_false Bool.false_ne_true ?_⟩
    rintro ⟨-, -, hash, hok⟩
    rw [hhash] at hok
    cases hok
  | shows hsends hwait =>
    obtain ⟨balance, -, hs⟩ := hsends.short
    obtain ⟨k, -, -, -, seen, -, hseen⟩ := pollUntil_eq_some_iff.mp hwait
    have hsatisfied : request.satisfied cfg seen = true := by
      by_contra hnot
      dsimp only at hseen
      rw [if_neg hnot] at hseen
      cases hseen
    refine ⟨Call.finish { (Call.begin request begun).send with phase := .polling, pending := false } .returned begun,
      .tail (reach_polling begun hs) (a := (seen, begun, .observed)) trivial ?_, rfl, iff_of_true rfl hsends⟩
    exact if_pos ⟨rfl, hsatisfied⟩
  | unseen hsends _ _ =>
    obtain ⟨balance, -, hs⟩ := hsends.short
    refine ⟨Call.finish { (Call.begin request begun).send with phase := .polling, pending := false } .failed begun,
      .tail (reach_polling begun hs) (a := (0, begun, .fails)) trivial rfl, rfl, iff_of_true rfl hsends⟩

end Steps

/-- How a call that is given time ends, and where its steps lead. -/
structure Ended (cfg : FundingConfig) (answers : FundingAnswers) (request : FundingCall) (deadline begun : ℕ)
    (result : Except String Unit) : Prop where
  ok_iff : result = .ok () ↔
    (∃ balance, answers.balance = .ok balance ∧ request.satisfied cfg balance = true) ∨
      (Sends cfg answers request ∧ Reflects cfg answers request deadline)
  reach : ∃ c, Reach (alone cfg) (Call.begin request begun) c ∧ EndsAs cfg answers request result c

theorem Course.ended {result : Option (Except String Unit)} (hc : Course cfg answers request deadline 61 result)
    (h : answers.Timely) (hdeadline : deadline ≤ answers.clock 0 + gasFundingTimeoutMs) (begun : ℕ) :
    ∃ r, result = some r ∧ Ended cfg answers request deadline begun r := by
  obtain ⟨r, rfl⟩ := hc.isSome h hdeadline
  exact ⟨r, rfl, hc.ok_iff h hdeadline, hc.reach begun⟩

end Course

/-- An activation that returns a hash has sent that transaction; one that returns none has sent nothing. -/
theorem hash_of_ensureActivated {cfg : FundingConfig} {answers : FundingAnswers} {address : String} {fuel : ℕ}
    {hash : Option String} (h : ensureActivated cfg answers address fuel = some (.ok hash)) :
    (hash = none ∧ ¬ Sends cfg answers (.ensureActivated address)) ∨
      (∃ sent, hash = some sent ∧ answers.hash = .ok sent ∧ Sends cfg answers (.ensureActivated address)) := by
  unfold ensureActivated at h
  cases hbalance : answers.balance with
  | error e => simp [hbalance] at h
  | ok balance =>
    rw [hbalance] at h
    dsimp only at h
    split_ifs at h with hs
    · cases h
      exact .inl ⟨rfl, fun hsends => hsends.not_enough ⟨balance, hbalance, hs⟩⟩
    cases haddress : answers.address with
    | error e => simp [haddress] at h
    | ok from_ =>
      cases hhash : answers.hash with
      | error e => simp [haddress, hhash] at h
      | ok sent =>
        simp only [haddress, hhash, Option.map_eq_some_iff] at h
        obtain ⟨result, -, hresult⟩ := h
        rcases result with e | ⟨⟨⟩⟩ | rounds
        · cases hresult
        · cases hresult
          exact .inr ⟨sent, rfl, rfl, ⟨balance, hbalance, Bool.eq_false_iff.mpr hs⟩, fun _ => ⟨from_, haddress⟩,
            sent, hhash⟩
        · cases hresult

/-- Both funding calls end, after at most 61 looks at the clock. They return exactly if the balance was enough or
a transaction was sent and showed in a read after a look at the clock that was in time, with a minute from the end of
the send for a top-up and from before the send for an activation, and the reads before that succeeded. What they do
is a run of the call the interleaved funding wallet makes, and it has sent exactly if they have. -/
theorem funding_calls_end (cfg : FundingConfig) (answers : FundingAnswers) (h : answers.Timely) (begun : ℕ) :
    (∀ walletAddress txCount, ∃ r, ensureGas cfg answers walletAddress txCount 61 = some r ∧
      Ended cfg answers (.ensureGas walletAddress txCount) (answers.sentAt + gasFundingTimeoutMs) begun r) ∧
    ∀ address, ∃ r, ensureActivated cfg answers address 61 = some r ∧
      Ended cfg answers (.ensureActivated address) (answers.started + gasFundingTimeoutMs) begun
        (r.map fun _ => ()) ∧
      ∀ hash, r = .ok hash → (hash = none ∧ ¬ Sends cfg answers (.ensureActivated address)) ∨
        ∃ sent, hash = some sent ∧ answers.hash = .ok sent ∧ Sends cfg answers (.ensureActivated address) := by
  have hsent := h.waiting
  have hstarted := h.sending
  refine ⟨fun walletAddress txCount => ?_, fun address => ?_⟩
  · exact (course_of_ensureGas cfg answers walletAddress txCount 61).ended h (by omega) begun
  · obtain ⟨r, hr, hended⟩ := (course_of_ensureActivated cfg answers address 61).ended h (by omega) begun
    obtain ⟨r', hr', rfl⟩ := Option.map_eq_some_iff.mp hr
    exact ⟨r', hr', hended, fun hash hok => hash_of_ensureActivated (hok ▸ hr')⟩

/-- The send takes two minutes: the node has answered at once that the wallet is empty, and shows the transaction
with the first read after the send. -/
def slowSend : FundingAnswers :=
  ⟨.ok 0, .ok "0xfunding", 0, .ok "0xhash", 120000, fun n => 120000 + 1000 * n, fun _ => .ok 100⟩

/-- A top-up waits for the transaction, an activation that has sent it does not. -/
theorem slow_send_ends : slowSend.Timely ∧
    (ensureGas ⟨50, 1, fun _ => .ok none⟩ slowSend "0xA" 2 61 = some (.ok ()) ∧
      (ensureActivated ⟨50, 1, fun _ => .ok none⟩ slowSend "0xA" 61).map Except.isOk = some false) ∧
    ∃ r, ensureActivated ⟨50, 1, fun _ => .ok none⟩ slowSend "0xA" 61 = some r ∧
      Ended ⟨50, 1, fun _ => .ok none⟩ slowSend (.ensureActivated "0xA") 60000 7 (r.map fun _ => ()) := by
  have htimely : slowSend.Timely :=
    ⟨by decide, by decide, fun n => by simp only [slowSend, gasFundingPollIntervalMs]; omega⟩
  refine ⟨htimely, ⟨by decide +kernel, by decide +kernel⟩, ?_⟩
  obtain ⟨r, hr, hended, -⟩ := (funding_calls_end ⟨50, 1, fun _ => .ok none⟩ slowSend htimely 7).2 "0xA"
  exact ⟨r, hr, hended⟩

end FinP2PAdapter.GasStation
