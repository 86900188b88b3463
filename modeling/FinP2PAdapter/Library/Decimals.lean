import Mathlib.Data.List.DropRight
import Mathlib.Data.Nat.Notation
import Mathlib.Data.Int.Notation

/-! Amounts of base units written as decimal numbers. A number of units with `d`
decimals is written with its last `d` digits behind a point and without the zeros
at its end; a written number is read back by filling its fraction up to `d` digits,
and is refused if a digit would be lost. Reading is a left inverse of writing, for
every amount and every number of decimals. -/

namespace FinP2PAdapter.Decimals

/-! ### Writing -/

/-- Trailing zeros go, but for the first digit of the fraction. -/
def trimZeros : List Char → List Char
  | [] => []
  | c :: cs => c :: cs.rdropWhile (· = '0')

/-- The digits of a number, padded to at least one digit before the point. -/
def padded (n decimals : ℕ) : List Char :=
  List.replicate (decimals + 1 - (Nat.toDigits 10 n).length) '0' ++ Nat.toDigits 10 n

def formatDigits (n decimals : ℕ) : List Char :=
  if decimals = 0 then Nat.toDigits 10 n
  else
    let str := padded n decimals
    let index := str.length - decimals
    str.take index ++ '.' :: trimZeros (str.drop index)

/-- The amount as a decimal number. -/
def formatUnits (amount : ℤ) (decimals : ℕ) : String :=
  String.ofList (if amount < 0 then '-' :: formatDigits amount.natAbs decimals
    else formatDigits amount.natAbs decimals)

/-! ### Reading -/

/-- What follows the whole part: nothing, or a point and digits. -/
def fraction? : List Char → Option (List Char)
  | [] => some []
  | '.' :: decimal => if decimal.all Char.isDigit then some decimal else none
  | _ => none

def parseDigits (cs : List Char) (decimals : ℕ) : Except String ℕ :=
  let whole := cs.takeWhile Char.isDigit
  match fraction? (cs.dropWhile Char.isDigit) with
  | none => .error "invalid FixedNumber string value"
  | some decimal =>
    if whole = [] ∧ decimal = [] then .error "invalid FixedNumber string value"
    else
      let filled := decimal ++ List.replicate (decimals - decimal.length) '0'
      if (filled.drop decimals).all (· = '0') then .ok
        (Nat.ofDigitChars 10 (whole ++ filled.take decimals) 0)
      else .error "too many decimals for format"

/-- The amount that a decimal number denotes, exactly. -/
def parseUnits (value : String) (decimals : ℕ) : Except String ℤ :=
  if value.toList.head? = some '-' then (parseDigits value.toList.tail decimals).map fun n => -(n : ℤ)
  else (parseDigits value.toList decimals).map fun n => (n : ℤ)

/-! ### Reading what was written -/

theorem isDigit_toDigits {n : ℕ} {c : Char} (h : c ∈ Nat.toDigits 10 n) : c.isDigit :=
  Nat.isDigit_of_mem_toDigits (by omega) (by omega) h

theorem isDigit_padded {n decimals : ℕ} {c : Char} (h : c ∈ padded n decimals) : c.isDigit := by
  rcases List.mem_append.mp h with h | h
  · rw [List.eq_of_mem_replicate h]
    rfl
  · exact isDigit_toDigits h

theorem length_padded (n decimals : ℕ) : decimals < (padded n decimals).length := by
  rw [padded, List.length_append, List.length_replicate]
  omega

theorem value_padded (n decimals : ℕ) : Nat.ofDigitChars 10 (padded n decimals) 0 = n := by
  rw [padded, Nat.ofDigitChars_append, Nat.ofDigitChars_replicate_zero, Nat.mul_zero,
    Nat.ofDigitChars_ten_toDigits]

theorem trimZeros_subset {cs : List Char} {c : Char} (h : c ∈ trimZeros cs) : c ∈ cs := by
  cases cs with
  | nil => exact h
  | cons d cs =>
    rcases List.mem_cons.mp h with rfl | h
    · exact List.mem_cons_self
    · exact List.mem_cons_of_mem _ ((List.rdropWhile_prefix _ cs).subset h)

/-- Filling the trimmed fraction up to its length gives it back. -/
theorem fill_trimZeros (cs : List Char) :
    trimZeros cs ++ List.replicate (cs.length - (trimZeros cs).length) '0' = cs := by
  cases cs with
  | nil => rfl
  | cons c cs =>
    have hsplit : cs.rdropWhile (· = '0') ++ cs.rtakeWhile (· = '0') = cs :=
      List.rdropWhile_append_rtakeWhile
    have hzeros : cs.rtakeWhile (· = '0') = List.replicate (cs.rtakeWhile (· = '0')).length '0' := by
      refine List.eq_replicate_of_mem fun d hd => ?_
      simpa using List.mem_rtakeWhile_imp hd
    have hlength : (c :: cs).length - (trimZeros (c :: cs)).length =
        (cs.rtakeWhile (· = '0')).length := by
      have hl := congrArg List.length hsplit
      rw [List.length_append] at hl
      simp only [trimZeros, List.length_cons]
      omega
    rw [hlength, ← hzeros, trimZeros, List.cons_append, hsplit]

/-- A run of digits is the whole part of what follows it. -/
theorem parseDigits_append {whole rest decimal : List Char} {decimals : ℕ}
    (hwhole : ∀ c ∈ whole, c.isDigit) (hne : whole ≠ []) (hrest : ∀ c ∈ rest.head?, ¬ c.isDigit)
    (hfraction : fraction? rest = some decimal) (hlength : decimal.length ≤ decimals) :
    parseDigits (whole ++ rest) decimals =
      .ok (Nat.ofDigitChars 10 (whole ++
        (decimal ++ List.replicate (decimals - decimal.length) '0')) 0) := by
  have hstops : rest.takeWhile Char.isDigit = [] ∧ rest.dropWhile Char.isDigit = rest := by
    cases rest with
    | nil => exact ⟨rfl, rfl⟩
    | cons c cs =>
      have hc : ¬ c.isDigit := hrest c rfl
      exact ⟨by simp [hc], by simp [hc]⟩
  have htake : (whole ++ rest).takeWhile Char.isDigit = whole := by
    rw [List.takeWhile_append_of_pos hwhole, hstops.1, List.append_nil]
  have hdrop : (whole ++ rest).dropWhile Char.isDigit = rest := by
    rw [List.dropWhile_append_of_pos hwhole, hstops.2]
  have hfill : (decimal ++ List.replicate (decimals - decimal.length) '0').length = decimals := by
    rw [List.length_append, List.length_replicate]
    omega
  unfold parseDigits
  rw [htake, hdrop, hfraction]
  simp only [hne, false_and, if_false]
  rw [List.drop_of_length_le hfill.le, List.take_of_length_le hfill.le]
  rfl

/-- A number with decimals is written as a whole part and a fraction of its digits. -/
theorem formatDigits_split (n : ℕ) {decimals : ℕ} (hd : decimals ≠ 0) :
    ∃ whole frac, formatDigits n decimals = whole ++ '.' :: trimZeros frac ∧ whole ++
      frac = padded n decimals ∧
      whole ≠ [] ∧ frac.length = decimals ∧ ∀ c, c ∈ whole ∨ c ∈ frac → c.isDigit := by
  have hlt := length_padded n decimals
  have hsplit := List.take_append_drop ((padded n decimals).length - decimals) (padded n decimals)
  refine ⟨_, _, by rw [formatDigits, if_neg hd], hsplit, ?_, ?_, ?_⟩
  · intro hnil
    have hl := congrArg List.length hnil
    rw [List.length_take, List.length_nil] at hl
    omega
  · rw [List.length_drop]
    omega
  · intro c hc
    apply @isDigit_padded n decimals
    rw [← hsplit]
    exact List.mem_append.mpr hc

theorem parseDigits_formatDigits (n decimals : ℕ) :
    parseDigits (formatDigits n decimals) decimals = .ok n := by
  by_cases hd : decimals = 0
  · -- without decimals there is no point
    have h := @parseDigits_append (Nat.toDigits 10 n) [] [] decimals (fun c hc => isDigit_toDigits hc)
      Nat.toDigits_ne_nil (fun c hc => nomatch hc) rfl (Nat.zero_le _)
    rw [List.append_nil] at h
    rw [formatDigits, if_pos hd, h, hd]
    simp
  · obtain ⟨whole, frac, hformat, hsplit, hne, hlength, hdigits⟩ := formatDigits_split n hd
    have hpoint : fraction? ('.' :: trimZeros frac) = some (trimZeros frac) := by
      rw [fraction?, if_pos]
      rw [List.all_eq_true]
      exact fun c hc => hdigits c (.inr (trimZeros_subset hc))
    have hfill := fill_trimZeros frac
    have htrim : (trimZeros frac).length ≤ decimals := by
      have hl := congrArg List.length hfill
      rw [List.length_append] at hl
      omega
    rw [hformat, parseDigits_append (fun c hc => hdigits c (.inl hc)) hne (by simp) hpoint htrim,
      ← hlength, hfill, hsplit, value_padded]

/-- Only the sign is written as `-`. -/
theorem head_formatDigits (n decimals : ℕ) : (formatDigits n decimals).head? ≠ some '-' := by
  have hdigit : ∀ c cs, c.isDigit → (c :: cs).head? ≠ some '-' := by
    rintro c cs hc ⟨⟩
    exact absurd hc (by decide)
  by_cases hd : decimals = 0
  · rw [formatDigits, if_pos hd]
    obtain ⟨c, cs, hcs⟩ := List.exists_cons_of_ne_nil (@Nat.toDigits_ne_nil n 10)
    rw [hcs]
    exact hdigit c cs (isDigit_toDigits (hcs ▸ List.mem_cons_self))
  · obtain ⟨whole, frac, hformat, -, hne, -, hdigits⟩ := formatDigits_split n hd
    obtain ⟨c, cs, rfl⟩ := List.exists_cons_of_ne_nil hne
    rw [hformat]
    exact hdigit c _ (hdigits c (.inl List.mem_cons_self))

/-- A written amount is read back exactly. -/
theorem parseUnits_formatUnits (amount : ℤ) (decimals : ℕ) :
    parseUnits (formatUnits amount decimals) decimals = .ok amount := by
  unfold parseUnits formatUnits
  rw [String.toList_ofList]
  by_cases hneg : amount < 0
  · have habs : -(amount.natAbs : ℤ) = amount := by omega
    rw [if_pos hneg, if_pos (by rfl), List.tail_cons, parseDigits_formatDigits]
    exact congrArg Except.ok habs
  · have habs : (amount.natAbs : ℤ) = amount := by omega
    rw [if_neg hneg, if_neg (head_formatDigits _ _), parseDigits_formatDigits]
    exact congrArg Except.ok habs

example : formatUnits 1500000 6 = "1.5" := by decide +kernel

example : parseUnits "1.5" 6 = .ok 1500000 := by decide +kernel

end FinP2PAdapter.Decimals
