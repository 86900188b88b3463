import FinP2PAdapter.Library.JsMap
import Mathlib.Algebra.BigOperators.Group.List.Basic
import Mathlib.Algebra.Order.BigOperators.Group.List
import Mathlib.Algebra.Order.Group.Int
import Mathlib.Algebra.Ring.Int.Defs
import Mathlib.Algebra.Group.Pi.Basic
import Mathlib.Data.Int.Notation
import Mathlib.Tactic.Common

/-! Tokens held for a purpose, and two ways to keep them. Holdings are what each account
owns and what is held of it under a key. A plain book of balances serves the same orders
if the held tokens are moved to an escrow account: it then shows every other account what
it owns, and the escrow account the sum of what is held. -/

namespace FinP2PAdapter

/-! ### Sums over a map -/

namespace JsMap

variable {K V : Type*} [DecidableEq K]

def sumOf (f : V → ℤ) (m : JsMap K V) : ℤ := (m.values.map f).sum

theorem sumOf_set_of_absent (f : V → ℤ) {m : JsMap K V} {k : K} (h : m.get? k = none) (v : V) :
    sumOf f (m.set k v) = sumOf f m + f v := by
  simp [sumOf, values_set_of_absent m v h]

theorem sum_filter_key (f : V → ℤ) {k : K} {v : V} :
    ∀ (l : List (K × V)), (l.map Prod.fst).Nodup → (k, v) ∈ l →
      ((l.filter fun e => e.1 ≠ k).map fun e => f e.2).sum + f v = (l.map fun e => f e.2).sum
  | [], _, h => by cases h
  | (j, w) :: l, hl, h => by
    simp only [List.map_cons, List.nodup_cons] at hl
    rcases List.mem_cons.mp h with he | h
    · cases he
      have hrest : (l.filter fun e => e.1 ≠ k) = l := by
        apply List.filter_eq_self.mpr
        intro e he
        have hne : e.1 ≠ k := fun hk => hl.1 (hk ▸ List.mem_map_of_mem he)
        simpa using hne
      rw [List.filter_cons_of_neg (by simp), hrest, List.map_cons, List.sum_cons, Int.add_comm]
    · have hj : j ≠ k := fun hj => hl.1 (hj ▸ List.mem_map_of_mem (f := Prod.fst) h)
      have ih := sum_filter_key f l hl.2 h
      rw [List.filter_cons_of_pos (by simpa using hj), List.map_cons, List.sum_cons, List.map_cons,
        List.sum_cons]
      omega

theorem sumOf_delete (f : V → ℤ) {m : JsMap K V} {k : K} {v : V} (h : m.get? k = some v) :
    sumOf f (m.delete k) + f v = sumOf f m := by
  have hs := sum_filter_key f m.entries m.nodup ((get?_eq_some_iff m k v).mp h)
  simpa [sumOf, values, delete, Function.comp_def] using hs

theorem sumOf_nonneg {f : V → ℤ} {m : JsMap K V} (h : ∀ k v, m.get? k = some v → 0 ≤ f v) :
    0 ≤ sumOf f m := by
  apply List.sum_nonneg
  intro n hn
  obtain ⟨v, hv, rfl⟩ := List.mem_map.mp hn
  obtain ⟨k, hk⟩ := (mem_values m v).mp hv
  exact h k v hk

theorem le_sumOf {f : V → ℤ} {m : JsMap K V} (h : ∀ k v, m.get? k = some v → 0 ≤ f v) {k : K} {v : V}
    (hk : m.get? k = some v) : f v ≤ sumOf f m := by
  have hrest : 0 ≤ sumOf f (m.delete k) := sumOf_nonneg fun j w hj => by
    rw [get?_delete] at hj
    split_ifs at hj
    exact h j w hj
  have hsum := sumOf_delete f hk
  omega

theorem sumOf_eq_zero {f : V → ℤ} {m : JsMap K V} (h : ∀ k v, m.get? k = some v → f v = 0) :
    sumOf f m = 0 := by
  apply List.sum_eq_zero
  intro n hn
  obtain ⟨v, hv, rfl⟩ := List.mem_map.mp hn
  obtain ⟨k, hk⟩ := (mem_values m v).mp hv
  exact h k v hk

end JsMap

namespace Holds

variable {A K : Type*} [DecidableEq K]

/-! ### Orders -/

/-- Tokens held of an account. -/
structure Held (A : Type*) where
  holder : A
  amount : ℤ
  deriving DecidableEq, Repr

/-- What may be asked of holdings: to hold an account's tokens under a key, to deliver or
destroy what is held under one, or to burn tokens an account owns. -/
inductive Order (A K : Type*) where
  | hold (key : K) (holder : A) (amount : ℤ)
  | deliver (key : K) (target : A) (amount : ℤ)
  | destroy (key : K) (amount : ℤ)
  | burn (owner : A) (amount : ℤ)
  deriving DecidableEq, Repr

namespace Order

/-- What is held once the order is done. -/
def record (held : JsMap K (Held A)) : Order A K → JsMap K (Held A)
  | hold key holder amount => held.set key ⟨holder, amount⟩
  | deliver key _ _ | destroy key _ => held.delete key
  | burn _ _ => held

/-- Nothing is held under the key of a hold, and just the amount under that of a settlement. -/
def Fits (held : JsMap K (Held A)) : Order A K → Prop
  | hold key _ _ => held.get? key = none
  | deliver key _ amount | destroy key amount => (held.get? key).map Held.amount = some amount
  | burn _ _ => True

/-- The account it names is not this one. -/
def AwayFrom (escrow : A) : Order A K → Prop
  | hold _ account _ | deliver _ account _ | burn account _ => account ≠ escrow
  | destroy _ _ => True

instance [DecidableEq A] (held : JsMap K (Held A)) : (o : Order A K) → Decidable (o.Fits held)
  | hold key _ _ => inferInstanceAs (Decidable (held.get? key = none))
  | deliver key _ amount | destroy key amount =>
    inferInstanceAs (Decidable ((held.get? key).map Held.amount = some amount))
  | burn _ _ => .isTrue trivial

instance [DecidableEq A] (escrow : A) : (o : Order A K) → Decidable (o.AwayFrom escrow)
  | hold _ account _ | deliver _ account _ | burn account _ =>
    inferInstanceAs (Decidable (account ≠ escrow))
  | destroy _ _ => .isTrue trivial

end Order

/-! ### Two ways to keep holdings -/

/-- What accounts own and what is held of them. -/
structure Holdings (A K : Type*) [DecidableEq K] where
  own : A → ℤ
  held : JsMap K (Held A)
  totalSupply : ℤ

/-- Balances and nothing else. -/
structure Book (A : Type*) where
  balance : A → ℤ
  totalSupply : ℤ

def totalHeld (held : JsMap K (Held A)) : ℤ := held.sumOf Held.amount

/-- The book shows what the holdings are, with all that is held in the escrow account on
top of the `base` it began with; the escrow account itself owns `rest` in the holdings. -/
structure Escrows (escrow : A) (base rest : ℤ) (b : Book A) (h : Holdings A K) : Prop where
  total : b.balance escrow = base + totalHeld h.held
  others : ∀ a, a ≠ escrow → b.balance a = h.own a
  supply : b.totalSupply = h.totalSupply
  amounts : ∀ k e, h.held.get? k = some e → 0 ≤ e.amount ∧ e.holder ≠ escrow
  apart : h.own escrow = rest

variable {escrow : A} {base rest : ℤ} {b : Book A} {h : Holdings A K}

/-- While nothing is held the escrow account has no more than its own. -/
theorem Escrows.of_none_held (hempty : h.held = .empty) (htotal : b.balance escrow = base)
    (hothers : ∀ a, a ≠ escrow → b.balance a = h.own a) (hsupply : b.totalSupply = h.totalSupply)
    (hapart : h.own escrow = rest) : Escrows escrow base rest b h := by
  refine ⟨?_, hothers, hsupply, ?_, hapart⟩
  · rw [hempty, htotal]
    exact (Int.add_zero _).symm
  · intro k e hk
    rw [hempty] at hk
    cases hk

/-- The escrow account covers all that is held. -/
theorem Escrows.covers (hs : Escrows escrow base rest b h) (hbase : 0 ≤ base) {k : K} {e : Held A}
    (hk : h.held.get? k = some e) : e.amount ≤ b.balance escrow := by
  have hle : e.amount ≤ totalHeld h.held := JsMap.le_sumOf (fun j d hj => (hs.amounts j d hj).1) hk
  rw [hs.total]
  omega

theorem amounts_delete {held : JsMap K (Held A)} {key : K}
    (h : ∀ k e, held.get? k = some e → 0 ≤ e.amount ∧ e.holder ≠ escrow) :
    ∀ k e, (held.delete key).get? k = some e → 0 ≤ e.amount ∧ e.holder ≠ escrow := by
  intro k e hk
  rw [JsMap.get?_delete] at hk
  split_ifs at hk
  exact h k e hk

theorem totalHeld_delete {held : JsMap K (Held A)} {key : K} {amount : ℤ}
    (hk : (held.get? key).map Held.amount = some amount) :
    totalHeld (held.delete key) = totalHeld held + -amount := by
  obtain ⟨e, he, rfl⟩ := Option.map_eq_some_iff.mp hk
  have hsum := JsMap.sumOf_delete Held.amount he
  unfold totalHeld
  omega

/-- What a settlement takes is there. -/
theorem Escrows.settles (hs : Escrows escrow base rest b h) (hbase : 0 ≤ base) {key : K} {amount : ℤ}
    (hk : (h.held.get? key).map Held.amount = some amount) : 0 ≤ amount ∧
      amount ≤ b.balance escrow := by
  obtain ⟨e, he, rfl⟩ := Option.map_eq_some_iff.mp hk
  exact ⟨(hs.amounts key e he).1, hs.covers hbase he⟩

/-- What both have to do: the same to every other account, to the escrow account what it
does to the total held. -/
theorem Escrows.change {b' : Book A} {h' : Holdings A K} (hs : Escrows escrow base rest b h)
    {δ ε : A → ℤ}
    (hb : b'.balance = b.balance + δ) (hh : h'.own = h.own + ε) (hothers : ∀ a, a ≠ escrow → δ a = ε a)
    (htotal : totalHeld h'.held = totalHeld h.held + δ escrow) (hapart : ε escrow = 0)
    (hsupply : b'.totalSupply = h'.totalSupply)
    (hamounts : ∀ k e, h'.held.get? k = some e → 0 ≤ e.amount ∧ e.holder ≠ escrow) :
    Escrows escrow base rest b' h' := by
  refine ⟨?_, fun a ha => ?_, hsupply, hamounts, ?_⟩
  · have htot := hs.total
    rw [hb, Pi.add_apply, htotal]
    omega
  · have hown := hs.others a ha
    have heq := hothers a ha
    rw [hb, hh, Pi.add_apply, Pi.add_apply]
    omega
  · have hown := hs.apart
    rw [hh, Pi.add_apply]
    omega

/-! ### Orders done -/

variable [DecidableEq A]

def heldBy (held : JsMap K (Held A)) (a : A) : ℤ := held.sumOf fun e =>
    if e.holder = a then e.amount else 0

/-- All that is an account's, held or not. -/
def Holdings.balance (h : Holdings A K) (a : A) : ℤ := h.own a + heldBy h.held a

/-- Nothing is held of the escrow account. -/
theorem Escrows.balance_escrow (hs : Escrows escrow base rest b h) : h.balance escrow = rest := by
  have hzero : heldBy h.held escrow = 0 := JsMap.sumOf_eq_zero fun k e hk =>
    if_neg (hs.amounts k e hk).2
  rw [Holdings.balance, hzero, hs.apart, Int.add_zero]

/-- The order, if the tokens are there. -/
def Holdings.perform (h : Holdings A K) (o : Order A K) : Option (Holdings A K) :=
  let held := o.record h.held
  match o with
  | .hold key holder amount =>
    if h.held.get? key = none ∧ 0 ≤ amount ∧ amount ≤ h.own holder then
      some ⟨h.own - Pi.single holder amount, held, h.totalSupply⟩
    else none
  | .deliver key target amount =>
    if (h.held.get? key).map Held.amount = some amount then
      some ⟨h.own + Pi.single target amount, held, h.totalSupply⟩
    else none
  | .destroy key amount =>
    if (h.held.get? key).map Held.amount =
      some amount then some ⟨h.own, held, h.totalSupply - amount⟩ else none
  | .burn owner amount =>
    if 0 ≤ amount ∧ amount ≤ h.own owner then
      some ⟨h.own - Pi.single owner amount, held, h.totalSupply - amount⟩
    else none

namespace Book

def move (b : Book A) (source target : A) (amount : ℤ) : Option (Book A) :=
  if 0 ≤ amount ∧ amount ≤ b.balance source then
    some { b with balance := b.balance - Pi.single source amount + Pi.single target amount }
  else none

def burn (b : Book A) (owner : A) (amount : ℤ) : Option (Book A) :=
  if 0 ≤ amount ∧ amount ≤ b.balance owner then
    some ⟨b.balance - Pi.single owner amount, b.totalSupply - amount⟩
  else none

/-- The order by way of an escrow account. -/
def perform (escrow : A) (b : Book A) : Order A K → Option (Book A)
  | .hold _ holder amount => b.move holder escrow amount
  | .deliver _ target amount => b.move escrow target amount
  | .destroy _ amount => b.burn escrow amount
  | .burn owner amount => b.burn owner amount

end Book

theorem Holdings.held_perform {h h' : Holdings A K} {o : Order A K} (hp : h.perform o = some h') :
    h'.held = o.record h.held := by
  cases o with
  | hold key holder amount =>
    simp only [perform] at hp
    split_ifs at hp
    cases hp
    rfl
  | deliver key target amount =>
    simp only [perform] at hp
    split_ifs at hp
    cases hp
    rfl
  | destroy key amount =>
    simp only [perform] at hp
    split_ifs at hp
    cases hp
    rfl
  | burn owner amount =>
    simp only [perform] at hp
    split_ifs at hp
    cases hp
    rfl

theorem Escrows.hold (hs : Escrows escrow base rest b h) {key : K} {holder : A} {amount : ℤ}
    (ha : holder ≠ escrow) (hk : h.held.get? key = none) :
    Option.Rel (Escrows escrow base rest) (b.perform escrow (.hold key holder amount))
      (h.perform (.hold key holder amount)) := by
  simp only [Book.perform, Book.move, Holdings.perform, hs.others holder ha, hk, true_and]
  split_ifs with hcovered
  · refine .some (hs.change (δ := -Pi.single holder amount + Pi.single escrow amount)
      (ε := -Pi.single holder amount) ?_ ?_ (fun a hne => ?_) ?_ ?_ hs.supply fun k e he => ?_)
    · rw [← add_assoc, sub_eq_add_neg]
    · exact sub_eq_add_neg ..
    · rw [Pi.add_apply, Pi.single_eq_of_ne hne, Int.add_zero]
    · have hsum := JsMap.sumOf_set_of_absent Held.amount hk ⟨holder, amount⟩
      rw [Pi.add_apply, Pi.neg_apply, Pi.single_eq_of_ne ha.symm, Pi.single_eq_same, Int.neg_zero,
        Int.zero_add]
      exact hsum
    · rw [Pi.neg_apply, Pi.single_eq_of_ne ha.symm, Int.neg_zero]
    · simp only [Order.record, JsMap.get?_set] at he
      split_ifs at he
      · cases he
        exact ⟨hcovered.1, ha⟩
      · exact hs.amounts k e he
  · exact .none

theorem Escrows.deliver (hs : Escrows escrow base rest b h) (hbase : 0 ≤ base) {key : K} {target : A}
    {amount : ℤ} (ha : target ≠ escrow) (hk : (h.held.get? key).map Held.amount = some amount) :
    Option.Rel (Escrows escrow base rest) (b.perform escrow (.deliver key target amount))
      (h.perform (.deliver key target amount)) := by
  simp only [Book.perform, Book.move, Holdings.perform]
  rw [if_pos (hs.settles hbase hk), if_pos hk]
  refine .some (hs.change (δ := -Pi.single escrow amount + Pi.single target amount)
    (ε := Pi.single target amount)
    ?_ rfl (fun a hne => ?_) ?_ ?_ hs.supply (amounts_delete hs.amounts))
  · rw [← add_assoc, sub_eq_add_neg]
  · rw [Pi.add_apply, Pi.neg_apply, Pi.single_eq_of_ne hne, Int.neg_zero, Int.zero_add]
  · rw [Pi.add_apply, Pi.neg_apply, Pi.single_eq_of_ne ha.symm, Pi.single_eq_same, Int.add_zero]
    exact totalHeld_delete hk
  · exact Pi.single_eq_of_ne ha.symm ..

theorem Escrows.destroy (hs : Escrows escrow base rest b h) (hbase : 0 ≤ base) {key : K} {amount : ℤ}
    (hk : (h.held.get? key).map Held.amount = some amount) :
    Option.Rel (Escrows escrow base rest) (b.perform escrow (.destroy key amount))
      (h.perform (.destroy key amount)) := by
  simp only [Book.perform, Book.burn, Holdings.perform]
  rw [if_pos (hs.settles hbase hk), if_pos hk]
  refine .some (hs.change (δ := -Pi.single escrow amount) (ε := 0) (sub_eq_add_neg ..) (add_zero _).symm
    (fun a hne => ?_) ?_ rfl ?_ (amounts_delete hs.amounts))
  · rw [Pi.neg_apply, Pi.single_eq_of_ne hne, Int.neg_zero, Pi.zero_apply]
  · rw [Pi.neg_apply, Pi.single_eq_same]
    exact totalHeld_delete hk
  · exact congrArg (· - amount) hs.supply

theorem Escrows.burn (hs : Escrows escrow base rest b h) {owner : A} {amount : ℤ}
    (ha : owner ≠ escrow) :
    Option.Rel (Escrows escrow base rest) (b.perform (K := K) escrow (.burn owner amount))
      (h.perform (.burn owner amount)) := by
  simp only [Book.perform, Book.burn, Holdings.perform, hs.others owner ha]
  split_ifs
  · refine .some (hs.change (δ := -Pi.single owner amount) (ε := -Pi.single owner amount)
      (sub_eq_add_neg ..)
      (sub_eq_add_neg ..) (fun _ _ => rfl) ?_ ?_ ?_ hs.amounts)
    · rw [Pi.neg_apply, Pi.single_eq_of_ne ha.symm, Int.neg_zero, Int.add_zero]
      rfl
    · rw [Pi.neg_apply, Pi.single_eq_of_ne ha.symm, Int.neg_zero]
    · exact congrArg (· - amount) hs.supply
  · exact .none

/-- An order that fits what is held and keeps away from the escrow account is done by both
or by neither, and the book still shows what the holdings are. -/
theorem Escrows.perform (hs : Escrows escrow base rest b h) (hbase : 0 ≤ base) {o : Order A K}
    (hfits : o.Fits h.held) (haway : o.AwayFrom escrow) :
    Option.Rel (Escrows escrow base rest) (b.perform escrow o) (h.perform o) := by
  cases o with
  | hold key holder amount => exact hs.hold haway hfits
  | deliver key target amount => exact hs.deliver hbase haway hfits
  | destroy key amount => exact hs.destroy hbase hfits
  | burn owner amount => exact hs.burn haway

/-! ### One order after another -/

/-- What is kept, and the record of what is held, after an order that may be refused. -/
def attempt {B : Type*} (perform : B → Order A K → Option B) (kept : B) (held : JsMap K (Held A)) :
    Option (Order A K) → B × JsMap K (Held A)
  | none => (kept, held)
  | some o =>
    match perform kept o with
    | none => (kept, held)
    | some kept' => (kept', o.record held)

/-- The book goes on showing what the holdings are, and both records what is held. -/
theorem Escrows.attempt (hs : Escrows escrow base rest b h) (hbase : 0 ≤ base)
    {order : Option (Order A K)} (hok : ∀ o ∈ order, o.Fits h.held ∧ o.AwayFrom escrow) :
    Escrows escrow base rest (attempt (Book.perform escrow) b h.held order).1
        (attempt Holdings.perform h h.held order).1 ∧
      (attempt Holdings.perform h h.held order).1.held = (attempt Holdings.perform h h.held order).2 ∧
      (attempt (Book.perform escrow) b h.held order).2 =
        (attempt Holdings.perform h h.held order).2 := by
  cases order with
  | none => exact ⟨hs, rfl, rfl⟩
  | some o =>
    obtain ⟨hfits, haway⟩ := hok o rfl
    have hrel := hs.perform hbase hfits haway
    simp only [Holds.attempt]
    cases hb : b.perform escrow o with
    | none =>
      rw [hb] at hrel
      cases hh : h.perform o with
      | none => exact ⟨hs, rfl, rfl⟩
      | some h' =>
        rw [hh] at hrel
        cases hrel
    | some b' =>
      rw [hb] at hrel
      cases hh : h.perform o with
      | none =>
        rw [hh] at hrel
        cases hrel
      | some h' =>
        rw [hh] at hrel
        cases hrel with
        | some hs' => exact ⟨hs', Holdings.held_perform hh, rfl⟩

end Holds

end FinP2PAdapter
