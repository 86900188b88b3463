import FinP2PAdapter.Fireblocks.RateLimits
import FinP2PAdapter.Fireblocks.Vaults

/-! Listings that the Fireblocks API answers page by page. Each page names the next one by a cursor;
`autoPaginate` follows the cursors, and stops at an empty page whether it names another one or not. What is
listed behind an empty page is lost. -/

namespace FinP2PAdapter.Fireblocks

open Interrupts

structure Paging where
  after : Option String
  deriving DecidableEq, Repr

section Paginate

variable {σ R T : Type} (paging : R → Option Paging) (extractor : R → List T)

/-- The loop, from a cursor and with what has been collected. `none` is a loop that goes on. -/
def paginate (apiCall : Option String → Act Rejection (Session σ) (Option R)) (retryCount : ℕ) :
    ℕ → Option String → List T → Act Rejection (Session σ) (Option (List T))
  | 0, _, _ => return none
  | fuel + 1, after, collected => do
    match ← retryIfRateLimited (apiCall after) retryCount with
    | none => return some collected
    | some response =>
      let after := (paging response).bind (·.after)
      let extracted := extractor response
      let collected := collected ++ extracted
      if extracted.length = 0 ∨ after = none then return some collected
      else paginate apiCall retryCount fuel after collected

def defaultRetryCount : ℕ := 30

def autoPaginate (apiCall : Option String → Act Rejection (Session σ) (Option R))
    (retryCountIfRateLimited : Option ℕ) (fuel : ℕ) : Act Rejection (Session σ) (Option (List T)) :=
  paginate paging extractor apiCall (retryCountIfRateLimited.getD defaultRetryCount) fuel none []

end Paginate

/-- What `getVaultAccountsWithPageInfo` responds. -/
structure VaultPage where
  accounts : List VaultAccount
  paging : Option Paging
  deriving DecidableEq, Repr

def fetchAllVaults {σ : Type}
    (getVaultAccountsWithPageInfo : Option String → Act Rejection (Session σ) (Option VaultPage)) :
    ℕ → Act Rejection (Session σ) (Option (List VaultAccount)) :=
  autoPaginate VaultPage.paging VaultPage.accounts getVaultAccountsWithPageInfo none

/-- The loop ends with this result. -/
def Returns {σ T : Type} (x : ℕ → Act Rejection (Session σ) (Option (List T))) (s : Session σ)
    (result : List T) : Prop :=
  ∃ enough, ∀ fuel ≥ enough, (exec (x fuel) s).1 = .ok (some result)

theorem Returns.unique {σ T : Type} {x : ℕ → Act Rejection (Session σ) (Option (List T))} {s : Session σ}
    {result result' : List T} (h : Returns x s result) (h' : Returns x s result') : result = result' := by
  obtain ⟨enough, h⟩ := h
  obtain ⟨enough', h'⟩ := h'
  have hsame := (h _ (Nat.le_max_left enough enough')).symm.trans (h' _ (Nat.le_max_right enough enough'))
  cases hsame
  rfl

/-! ### Chains of pages -/

section Chains

variable {σ R T : Type} (paging : R → Option Paging) (extractor : R → List T)
  (answer : σ → Option String → Except Rejection (Option R) × σ)

def request (after : Option String) : Act Rejection (Session σ) (Option R) := call fun api => answer api after

/-- The request is answered by the page, if it is repeated for at most so many rate limits. -/
inductive Answers (after : Option String) (page : R) : ℕ → σ → σ → Prop
  | page {budget : ℕ} {api api' : σ} : answer api after = (.ok (some page), api') →
      Answers after page budget api api'
  | limited {budget : ℕ} {api api₁ api' : σ} {error : Rejection} : answer api after = (.error error, api₁) →
      error.isRateLimited = true → Answers after page budget api₁ api' →
      Answers after page (budget + 1) api api'

/-- The pages from a cursor on, each answered within the budget, as their cursors link them. -/
inductive Chain (budget : ℕ) : σ → Option String → List R → Prop
  | last {api api' : σ} {after : Option String} {page : R} : Answers answer after page budget api api' →
      (paging page).bind (·.after) = none → Chain budget api after [page]
  | next {api api' : σ} {after : Option String} {page : R} {cursor : String} {pages : List R} :
      Answers answer after page budget api api' → (paging page).bind (·.after) = some cursor →
      Chain budget api' (some cursor) pages → Chain budget api after (page :: pages)

/-- Behind an empty page there are empty pages only. -/
def EmptyLast (pages : List R) : Prop :=
  pages.Pairwise fun page later => extractor page = [] → extractor later = []

variable {paging extractor answer} {budget : ℕ} {api api' : σ} {after : Option String} {pages : List R}

theorem exec_retry_answers {page : R} (h : Answers answer after page budget api api') (log : List ApiEvent) :
    ∃ log', exec (retryIfRateLimited (request answer after) budget) ⟨api, log⟩ =
      (.ok (some page), ⟨api', log'⟩) := by
  induction h generalizing log with
  | page hpage => exact ⟨_, exec_retry_settled _ hpage (.inr rfl)⟩
  | limited herror hlimited _ ih =>
    rw [request, exec_retry_limited _ herror hlimited]
    exact ih _

variable (paging extractor) in
/-- A round collects the page's items, and is the last one if there are none or there is no cursor. -/
theorem exec_paginate_round {page : R} (h : Answers answer after page budget api api') (fuel : ℕ)
    (collected : List T) (log : List ApiEvent) : ∃ log',
    exec (paginate paging extractor (request answer) budget (fuel + 1) after collected) ⟨api, log⟩ =
      if (extractor page).length = 0 ∨ (paging page).bind (·.after) = none then
        (.ok (some (collected ++ extractor page)), ⟨api', log'⟩)
      else exec (paginate paging extractor (request answer) budget fuel ((paging page).bind (·.after))
        (collected ++ extractor page)) ⟨api', log'⟩ := by
  obtain ⟨log', hexec⟩ := exec_retry_answers h log
  refine ⟨log', ?_⟩
  rw [paginate, exec_bind_ok hexec]
  dsimp only
  split_ifs <;> rfl

/-- The loop returns what is on the pages up to the first empty one. -/
theorem exec_paginate (h : Chain paging answer budget api after pages) (fuel : ℕ) (hfuel : pages.length ≤ fuel)
    (collected : List T) (log : List ApiEvent) :
    (exec (paginate paging extractor (request answer) budget fuel after collected) ⟨api, log⟩).1 =
      .ok (some (collected ++ (pages.takeWhile fun page => extractor page ≠ []).flatMap extractor)) := by
  induction h generalizing fuel collected log with
  | @last api api' after page hpage hend =>
    obtain ⟨fuel, rfl⟩ : ∃ n, fuel = n + 1 := Nat.exists_eq_succ_of_ne_zero (Nat.ne_of_gt hfuel)
    obtain ⟨log', hround⟩ := exec_paginate_round paging extractor hpage fuel collected log
    rw [hround, if_pos (.inr hend)]
    by_cases hempty : extractor page = [] <;> simp [hempty]
  | @next api api' after page cursor pages hpage hnext _ ih =>
    obtain ⟨fuel, rfl⟩ : ∃ n, fuel = n + 1 :=
      Nat.exists_eq_succ_of_ne_zero (Nat.ne_of_gt (lt_of_lt_of_le (Nat.succ_pos _) hfuel))
    obtain ⟨log', hround⟩ := exec_paginate_round paging extractor hpage fuel collected log
    rw [hround, hnext]
    by_cases hempty : extractor page = []
    · rw [if_pos (.inl (List.length_eq_zero_iff.mpr hempty))]
      simp [hempty]
    · rw [if_neg (by simp [hempty]), ih fuel (Nat.le_of_succ_le_succ hfuel),
        List.takeWhile_cons_of_pos (by simpa using hempty), List.flatMap_cons, List.append_assoc]

theorem flatMap_takeWhile_eq_iff (pages : List R) :
    (pages.takeWhile fun page => extractor page ≠ []).flatMap extractor = pages.flatMap extractor ↔
      EmptyLast extractor pages := by
  unfold EmptyLast
  induction pages with
  | nil => simp
  | cons page pages ih =>
    rw [List.pairwise_cons, List.flatMap_cons]
    by_cases hempty : extractor page = []
    · rw [List.takeWhile_cons_of_neg (by simpa using hempty), hempty, List.nil_append, eq_comm]
      show pages.flatMap extractor = [] ↔ _
      rw [List.flatMap_eq_nil_iff]
      constructor
      · intro hall
        exact ⟨fun later hlater _ => hall later hlater,
          List.pairwise_of_forall_mem_list fun _ _ later hlater _ => hall later hlater⟩
      · intro hall later hlater
        exact hall.1 later hlater rfl
    · rw [List.takeWhile_cons_of_pos (by simpa using hempty), List.flatMap_cons, List.append_cancel_left_eq, ih]
      exact ⟨fun hrest => ⟨fun _ _ h => absurd h hempty, hrest⟩, fun hrest => hrest.2⟩

variable {log : List ApiEvent} (retryCount : Option ℕ)

theorem autoPaginate_returns (h : Chain paging answer (retryCount.getD defaultRetryCount) api none pages) :
    Returns (autoPaginate paging extractor (request answer) retryCount) ⟨api, log⟩
      ((pages.takeWhile fun page => extractor page ≠ []).flatMap extractor) :=
  ⟨pages.length, fun fuel hfuel => exec_paginate h fuel hfuel [] log⟩

/-- For every chain of pages, answered within the retry budget: `autoPaginate` returns the items of all of
them, in their order, exactly if there are none behind an empty page. -/
theorem returns_all_iff (h : Chain paging answer (retryCount.getD defaultRetryCount) api none pages) :
    Returns (autoPaginate paging extractor (request answer) retryCount) ⟨api, log⟩ (pages.flatMap extractor) ↔
      EmptyLast extractor pages := by
  rw [← flatMap_takeWhile_eq_iff]
  constructor
  · intro hall
    exact (autoPaginate_returns retryCount h).unique hall
  · intro hsame
    rw [← hsame]
    exact autoPaginate_returns retryCount h

end Chains

/-! ### Vaults -/

def vaultOne : VaultAccount := ⟨"1", some ["ETH_TEST5"]⟩

def vaultTwo : VaultAccount := ⟨"2", some ["ETH_TEST5"]⟩

/-- Two pages, the first of which is asked for twice. -/
def limitedOnce (n : ℕ) : Option String → Except Rejection (Option VaultPage) × ℕ
  | none =>
    if n = 0 then (.error ⟨true, some 429, some ⟨some "1"⟩, "Request failed with status code 429"⟩, 1)
    else (.ok (some ⟨[vaultOne], some ⟨some "b"⟩⟩), n + 1)
  | some _ => (.ok (some ⟨[vaultTwo], none⟩), n + 1)

theorem returns_all_limitedOnce :
    Returns (fetchAllVaults (request limitedOnce)) ⟨0, []⟩ [vaultOne, vaultTwo] := by
  have hlast : Chain VaultPage.paging limitedOnce 30 2 (some "b") [⟨[vaultTwo], none⟩] := .last (.page rfl) rfl
  have hchain : Chain VaultPage.paging limitedOnce 30 0 none
      [⟨[vaultOne], some ⟨some "b"⟩⟩, ⟨[vaultTwo], none⟩] :=
    .next (.limited rfl rfl (.page rfl)) rfl hlast
  exact (returns_all_iff none hchain).mpr (by unfold EmptyLast; decide)

/-- Three pages, the second of which is empty. -/
def gapped (_ : Unit) : Option String → Except Rejection (Option VaultPage) × Unit
  | none => (.ok (some ⟨[vaultOne], some ⟨some "b"⟩⟩), ())
  | some "b" => (.ok (some ⟨[], some ⟨some "c"⟩⟩), ())
  | some _ => (.ok (some ⟨[vaultTwo], none⟩), ())

/-- The vault behind the empty page is not among all vaults. -/
theorem vault_behind_empty_page :
    Chain VaultPage.paging gapped defaultRetryCount () none
      [⟨[vaultOne], some ⟨some "b"⟩⟩, ⟨[], some ⟨some "c"⟩⟩, ⟨[vaultTwo], none⟩] ∧
    Returns (fetchAllVaults (request gapped)) ⟨(), []⟩ [vaultOne] ∧
    ¬ Returns (fetchAllVaults (request gapped)) ⟨(), []⟩ [vaultOne, vaultTwo] := by
  have hlast : Chain VaultPage.paging gapped defaultRetryCount () (some "c") [⟨[vaultTwo], none⟩] :=
    .last (.page rfl) rfl
  have hchain : Chain VaultPage.paging gapped defaultRetryCount () none
      [⟨[vaultOne], some ⟨some "b"⟩⟩, ⟨[], some ⟨some "c"⟩⟩, ⟨[vaultTwo], none⟩] :=
    .next (.page rfl) rfl (.next (.page rfl) rfl hlast)
  have hone : Returns (fetchAllVaults (request gapped)) ⟨(), []⟩ [vaultOne] :=
    autoPaginate_returns none hchain
  refine ⟨hchain, hone, fun hall => ?_⟩
  have hsame := hone.unique hall
  revert hsame
  decide

/-- A scan goes on with what `fetchAllVaults` returns, if each wallet there was is on some page and no page
with vaults is behind an empty one. -/
theorem scanStep_fetchAllVaults {σ : Type}
    {answer : σ → Option String → Except Rejection (Option VaultPage) × σ} {api : σ} {log : List ApiEvent}
    {pages : List VaultPage} {s : VaultState} {k : ℕ} {began : List Deposit}
    (hscan : s.scans[k]? = some (.listing began))
    (h : Chain VaultPage.paging answer defaultRetryCount api none pages)
    (hempty : EmptyLast VaultPage.accounts pages)
    (hbegan : ∀ d ∈ began, ∃ page ∈ pages, d.wallet ∈ walletsOf page.accounts) :
    ∃ vaults, Returns (fetchAllVaults (request answer)) ⟨api, log⟩ vaults ∧
      scanStep s k (.listed k vaults) =
        some (s.setScan k (.visit s.fireblocks.deposits (walletsOf vaults))) := by
  have hall : Returns (fetchAllVaults (request answer)) ⟨api, log⟩
      ((pages.takeWhile fun page => page.accounts ≠ []).flatMap VaultPage.accounts) := autoPaginate_returns none h
  rw [(flatMap_takeWhile_eq_iff pages).mpr hempty] at hall
  refine ⟨_, hall, ?_⟩
  have hlisted : ∀ d ∈ began, d.wallet ∈ walletsOf (pages.flatMap VaultPage.accounts) := by
    intro d hd
    rw [walletsOf, List.flatMap_assoc]
    exact List.mem_flatMap.mpr (hbegan d hd)
  simp only [scanStep, hscan]
  rw [if_pos hlisted]

end FinP2PAdapter.Fireblocks
