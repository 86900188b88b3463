import FinP2PAdapter.Accounts.AccountResolver
import Mathlib.Data.List.Infix
import Mathlib.Logic.Function.Basic

/-! The script that approves the operator contract on every asset's token. What it approves is the
requested amount less what is allowed already, while an approval replaces what was allowed. -/

namespace FinP2PAdapter.Scripts.MassApprove

open Accounts (truthy)

/-- An asset as the list has it, by the two places its token's address may stand. -/
structure ListedAsset where
  id : String
  ledgerReferenceAddress : Option String
  ledgerIdentifierTokenId : Option String
  deriving DecidableEq, Repr

def ListedAsset.tokenAddress (asset : ListedAsset) : Option String :=
  truthy (asset.ledgerReferenceAddress.orElse fun _ => asset.ledgerIdentifierTokenId)

/-- What the wait for an approval ends with. A transaction that was not confirmed in time may
still have been mined. -/
inductive Confirmation where
  | status (status : ℕ)
  | none (mined : Bool)
  | throws (mined : Bool) (message : String)
  deriving DecidableEq, Repr

/-- How the outside answers in one asset's steps; the allowance itself is read from the chain. -/
structure Answers where
  decimals : Except String ℕ
  name : Except String String
  allowance : Except String Unit
  approve : Except String String
  confirmation : Confirmation

structure Approval where
  tokenAddress : String
  value : ℕ
  deriving DecidableEq, Repr

/-- What the allowances are, the approvals sent, and what was logged of the errors caught. -/
structure State (C : Type) where
  allowance : C → ℕ
  sent : List Approval
  caught : List String

variable {C : Type} [DecidableEq C]

/-- An approval sets the allowance. -/
def State.approved (s : State C) (token : C) (value : ℕ) : State C :=
  { s with allowance := Function.update s.allowance token value }

/-- The catch of one asset's steps. -/
def State.catches (s : State C) (assetId message : String) : State C :=
  { s with caught := s.caught ++
      [if "Asset not found".toList <:+: message.toList then s!"Asset {assetId} not found on old contract"
        else s!"Error migrating asset {assetId}: {message}"] }

/-- The approval and the wait for it. -/
def approveAndWait (contractAt : String → C) (assetId tokenAddress : String) (value : ℕ)
    (answers : Answers) (s : State C) : State C :=
  match answers.approve with
  | .error message => s.catches assetId message
  | .ok txHash =>
    let sent : State C := { s with sent := s.sent ++ [⟨tokenAddress, value⟩] }
    let token := contractAt tokenAddress
    let after := fun mined : Bool => if mined then sent.approved token value else sent
    match answers.confirmation with
    | .status 1 => sent.approved token value
    | .status status => sent.catches assetId s!"approve tx {txHash} failed on-chain (status={status})"
    | .none mined => (after mined).catches assetId s!"approve tx {txHash} not confirmed within 120s"
    | .throws mined message => (after mined).catches assetId message

/-- One round of the loop; `contractAt` is the token contract at an address, however it is spelled. -/
def approveAsset (contractAt : String → C) (amount : ℤ) (s : State C)
    (round : ListedAsset × Answers) : State C :=
  let (asset, answers) := round
  match asset.tokenAddress with
  | none => s
  | some tokenAddress =>
    match answers.decimals, answers.name, answers.allowance with
    | .error message, _, _ | .ok _, .error message, _ | .ok _, .ok _, .error message =>
      s.catches asset.id message
    | .ok _, .ok _, .ok _ =>
      let allowed := s.allowance (contractAt tokenAddress)
      if (allowed : ℤ) < amount then
        approveAndWait contractAt asset.id tokenAddress (amount - allowed).toNat answers s
      else s

/-- A run over the listed assets, from the allowances of the chain. -/
def massApprove (contractAt : String → C) (amount : ℤ) (allowance : C → ℕ)
    (rounds : List (ListedAsset × Answers)) : State C :=
  rounds.foldl (approveAsset contractAt amount) ⟨allowance, [], []⟩

/-! ### One round -/

variable {contractAt : String → C} {amount : ℤ} {s : State C}

/-- What is allowed after a round in which nothing failed. -/
def approvedAmount (amount : ℤ) (allowed : ℕ) : ℕ :=
  if (allowed : ℤ) < amount then (amount - allowed).toNat else allowed

/-- The allowance is positive and too small. -/
def Short (amount : ℤ) (allowed : ℕ) : Prop := 0 < allowed ∧ (allowed : ℤ) < amount

theorem short_approvedAmount {allowed : ℕ} (h : Short amount allowed) :
    Short amount (approvedAmount amount allowed) := by
  unfold Short approvedAmount at *
  rw [if_pos h.2]
  omega

theorem le_approvedAmount {allowed : ℕ} (h : ¬ Short amount allowed) :
    amount ≤ approvedAmount amount allowed := by
  unfold Short approvedAmount at *
  split_ifs <;> omega

theorem approvedAmount_of_le {allowed : ℕ} (h : amount ≤ allowed) : approvedAmount amount allowed = allowed :=
  if_neg (by omega)

omit [DecidableEq C] in
theorem catches_ne_nil (s : State C) (assetId message : String) : (s.catches assetId message).caught ≠ [] :=
  List.append_ne_nil_of_right_ne_nil _ (List.cons_ne_nil _ _)

/-- An approval during which nothing was caught was sent, and set the allowance. -/
theorem approveAndWait_uncaught {assetId tokenAddress : String} {value : ℕ} {answers : Answers}
    (h : (approveAndWait contractAt assetId tokenAddress value answers s).caught = []) :
    (approveAndWait contractAt assetId tokenAddress value answers s).allowance =
        Function.update s.allowance (contractAt tokenAddress) value ∧ s.caught = [] := by
  unfold approveAndWait at *
  cases happrove : answers.approve with
  | error message =>
    simp only [happrove] at h
    exact absurd h (catches_ne_nil _ _ _)
  | ok txHash =>
    simp only [happrove] at h ⊢
    split at h
    · exact ⟨rfl, h⟩
    all_goals exact absurd h (catches_ne_nil _ _ _)

/-- A round in which nothing was caught approves the token that has an address. -/
theorem approveAsset_uncaught {round : ListedAsset × Answers}
    (h : (approveAsset contractAt amount s round).caught = []) :
    s.caught = [] ∧ (approveAsset contractAt amount s round).allowance =
      match round.1.tokenAddress with
      | none => s.allowance
      | some tokenAddress => Function.update s.allowance (contractAt tokenAddress)
          (approvedAmount amount (s.allowance (contractAt tokenAddress))) := by
  obtain ⟨asset, answers⟩ := round
  unfold approveAsset at *
  cases haddress : asset.tokenAddress with
  | none =>
    simp only [haddress] at h ⊢
    exact ⟨h, trivial⟩
  | some tokenAddress =>
    simp only [haddress] at h ⊢
    split at h
    · exact absurd h (catches_ne_nil _ _ _)
    · exact absurd h (catches_ne_nil _ _ _)
    · exact absurd h (catches_ne_nil _ _ _)
    · unfold approvedAmount
      split_ifs at h ⊢ with hless
      · obtain ⟨hallowance, hcaught⟩ := approveAndWait_uncaught h
        exact ⟨hcaught, hallowance⟩
      · exact ⟨h, (Function.update_eq_self _ _).symm⟩

/-- A round for a token that is approved for enough sends nothing, whatever fails. -/
theorem approveAsset_enough {round : ListedAsset × Answers}
    (h : ∀ tokenAddress, round.1.tokenAddress = some tokenAddress →
      amount ≤ s.allowance (contractAt tokenAddress)) :
    (approveAsset contractAt amount s round).allowance = s.allowance ∧
      (approveAsset contractAt amount s round).sent = s.sent := by
  obtain ⟨asset, answers⟩ := round
  unfold approveAsset
  dsimp only at h ⊢
  cases haddress : asset.tokenAddress with
  | none => exact ⟨rfl, rfl⟩
  | some tokenAddress =>
    have henough := h tokenAddress haddress
    have hno : ¬ (s.allowance (contractAt tokenAddress) : ℤ) < amount := by omega
    dsimp only
    split
    · exact ⟨rfl, rfl⟩
    · exact ⟨rfl, rfl⟩
    · exact ⟨rfl, rfl⟩
    · rw [if_neg hno]
      exact ⟨rfl, rfl⟩

/-! ### Runs -/

/-- What a round does to one token's allowance. -/
theorem allowance_round {round : ListedAsset × Answers}
    (h : (approveAsset contractAt amount s round).caught = []) (token : C) :
    (approveAsset contractAt amount s round).allowance token =
      if (round.1.tokenAddress.map contractAt) = some token then approvedAmount amount (s.allowance token)
      else s.allowance token := by
  rw [(approveAsset_uncaught h).2]
  cases round.1.tokenAddress with
  | none => simp
  | some tokenAddress =>
    by_cases htoken : contractAt tokenAddress = token
    · simp [htoken]
    · simp [htoken, Function.update_of_ne (Ne.symm htoken)]

theorem uncaught_of_foldl {rounds : List (ListedAsset × Answers)}
    (h : (rounds.foldl (approveAsset contractAt amount) s).caught = []) : s.caught = [] := by
  induction rounds generalizing s with
  | nil => exact h
  | cons round rounds ih => exact (approveAsset_uncaught (ih h)).1

/-- A short allowance stays short, however often its token is listed. -/
theorem short_foldl {rounds : List (ListedAsset × Answers)} {token : C}
    (h : (rounds.foldl (approveAsset contractAt amount) s).caught = [])
    (hshort : Short amount (s.allowance token)) :
    Short amount ((rounds.foldl (approveAsset contractAt amount) s).allowance token) := by
  induction rounds generalizing s with
  | nil => exact hshort
  | cons round rounds ih =>
    refine ih h ?_
    rw [allowance_round (uncaught_of_foldl h)]
    split_ifs
    · exact short_approvedAmount hshort
    · exact hshort

theorem enough_foldl {rounds : List (ListedAsset × Answers)} {token : C}
    (h : (rounds.foldl (approveAsset contractAt amount) s).caught = [])
    (henough : amount ≤ s.allowance token) :
    amount ≤ (rounds.foldl (approveAsset contractAt amount) s).allowance token := by
  induction rounds generalizing s with
  | nil => exact henough
  | cons round rounds ih =>
    refine ih h ?_
    rw [allowance_round (uncaught_of_foldl h), approvedAmount_of_le henough, ite_self]
    exact henough

/-- A token that is not short is approved for enough once its asset's round is over. -/
theorem enough_of_not_short {rounds : List (ListedAsset × Answers)} {token : C}
    (h : (rounds.foldl (approveAsset contractAt amount) s).caught = [])
    (hshort : ¬ Short amount (s.allowance token)) {round : ListedAsset × Answers} (hround : round ∈ rounds)
    (htoken : round.1.tokenAddress.map contractAt = some token) :
    amount ≤ (rounds.foldl (approveAsset contractAt amount) s).allowance token := by
  induction rounds generalizing s with
  | nil => cases hround
  | cons first rounds ih =>
    rw [List.foldl_cons] at h ⊢
    by_cases hfirst : first.1.tokenAddress.map contractAt = some token
    · refine enough_foldl h ?_
      rw [allowance_round (uncaught_of_foldl h), if_pos hfirst]
      exact le_approvedAmount hshort
    · refine ih h ?_ ?_
      · rwa [allowance_round (uncaught_of_foldl h), if_neg hfirst]
      · rcases List.mem_cons.mp hround with rfl | hmem
        · exact absurd htoken hfirst
        · exact hmem

/-- A run over tokens that are all approved for enough sends nothing. -/
theorem sent_of_enough {rounds : List (ListedAsset × Answers)}
    (h : ∀ round ∈ rounds, ∀ tokenAddress, round.1.tokenAddress = some tokenAddress →
      amount ≤ s.allowance (contractAt tokenAddress)) :
    (rounds.foldl (approveAsset contractAt amount) s).sent = s.sent := by
  induction rounds generalizing s with
  | nil => rfl
  | cons round rounds ih =>
    obtain ⟨hround, hrest⟩ := List.forall_mem_cons.mp h
    obtain ⟨hallowance, hsent⟩ := approveAsset_enough hround
    rw [List.foldl_cons, ih (by rwa [hallowance]), hsent]

/-- For all listed assets, allowances and amounts, and a run in which no asset's steps failed: it
leaves at least the amount on each token with an address, and a run right after it sends nothing,
exactly if no such token had a positive allowance below the amount. -/
theorem massApprove_suffices_iff (contractAt : String → C) (amount : ℤ) (allowance : C → ℕ)
    (rounds : List (ListedAsset × Answers))
    (h : (massApprove contractAt amount allowance rounds).caught = []) :
    ((∀ round ∈ rounds, ∀ tokenAddress, round.1.tokenAddress = some tokenAddress →
        amount ≤ (massApprove contractAt amount allowance rounds).allowance (contractAt tokenAddress)) ∧
      ∀ rounds' : List (ListedAsset × Answers), rounds'.map Prod.fst = rounds.map Prod.fst →
        (massApprove contractAt amount (massApprove contractAt amount allowance rounds).allowance
          rounds').sent = []) ↔
      ∀ round ∈ rounds, ∀ tokenAddress, round.1.tokenAddress = some tokenAddress →
        ¬ (0 < allowance (contractAt tokenAddress) ∧
          (allowance (contractAt tokenAddress) : ℤ) < amount) := by
  constructor
  · rintro ⟨henough, -⟩ round hround tokenAddress haddress hshort
    have hstill : Short amount
        ((massApprove contractAt amount allowance rounds).allowance (contractAt tokenAddress)) :=
      short_foldl h hshort
    have hle := henough round hround tokenAddress haddress
    have hlt := hstill.2
    omega
  · intro hnone
    have henough : ∀ round ∈ rounds, ∀ tokenAddress, round.1.tokenAddress = some tokenAddress →
        amount ≤ (massApprove contractAt amount allowance rounds).allowance (contractAt tokenAddress) := by
      intro round hround tokenAddress haddress
      exact enough_of_not_short h (hnone round hround tokenAddress haddress) hround (by rw [haddress]; rfl)
    refine ⟨henough, fun rounds' hsame => sent_of_enough fun round hround tokenAddress haddress => ?_⟩
    have hlisted : round.1 ∈ rounds.map Prod.fst := hsame ▸ List.mem_map_of_mem hround
    obtain ⟨round', hround', heq⟩ := List.mem_map.mp hlisted
    exact henough round' hround' tokenAddress (by rw [heq, haddress])

/-! ### A partial allowance -/

/-- One asset, all of whose steps succeed. -/
def oneToken : List (ListedAsset × Answers) :=
  [(⟨"asset-1", none, some "0xcc"⟩, ⟨.ok 2, .ok "COIN", .ok (), .ok "0xt1", .status 1⟩)]

/-- Of an amount of 5 with 3 allowed, 2 are approved, and they replace the 3. -/
theorem partial_allowance_shrinks : ¬ ∀ (contractAt : String → String) (amount : ℤ)
    (allowance : String → ℕ) (rounds : List (ListedAsset × Answers)),
    (massApprove contractAt amount allowance rounds).caught = [] →
      ∀ round ∈ rounds, ∀ tokenAddress, round.1.tokenAddress = some tokenAddress →
        amount ≤ (massApprove contractAt amount allowance rounds).allowance (contractAt tokenAddress) := by
  intro h
  have hle := h id 5 (fun _ => 3) oneToken (by decide) _ List.mem_cons_self "0xcc" (by decide)
  revert hle
  decide

/-- Without an allowance the whole amount is approved. -/
theorem no_allowance_approved :
    5 ≤ (massApprove id (5 : ℤ) (fun _ : String => 0) oneToken).allowance "0xcc" := by
  have hiff := massApprove_suffices_iff id (5 : ℤ) (fun _ : String => 0) oneToken (by decide)
  have henough := (hiff.mpr fun _ _ _ _ h => absurd h.1 (by decide)).1 _ List.mem_cons_self "0xcc" (by decide)
  exact_mod_cast henough

end FinP2PAdapter.Scripts.MassApprove
