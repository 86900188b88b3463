import FinP2PAdapter.Library.JsText
import Mathlib

/-! The numbers of the language, which are Lean's `Float`s: what `Number` makes of a text, and how long a
timer runs that is set to a number. A text of digits is a number that a timer runs for as it is, from one
to the longest delay; any other number of digits, and what is no number, makes it run for one millisecond. -/

namespace FinP2PAdapter.JsNumber

open Float.Model Float.Model.UnpackedFloat

/-! ### `Number` -/

def NaN : Float := .ofModel (.pack .notANumber)

def infinity : Float := .ofModel (.pack (.infinity .positive))

/-- `m * 10 ^ e`, rounded. -/
def decimal (m : ℕ) (e : ℤ) : Float := .ofModel (.ofScientific m e)

def digitValue (c : Char) : ℕ :=
  if c.isDigit then c.toNat - '0'.toNat else c.toLower.toNat - 'a'.toNat + 10

/-- The digits after `0x`, `0o` or `0b`. -/
def ofBase (base : ℕ) (digits : List Char) : Float :=
  if digits ≠ [] ∧ digits.all fun c => c.isAlphanum ∧ digitValue c < base then
    decimal (digits.foldl (fun n c => base * n + digitValue c) 0) 0
  else NaN

/-- What stands after the digits of a decimal number: nothing, or an exponent. -/
def exponent? : List Char → Option ℤ
  | [] => some 0
  | e :: cs =>
    if e = 'e' ∨ e = 'E' then
      match cs with
      | '-' :: digits => (JsText.digitsValue (String.ofList digits)).map fun n => -(n : ℤ)
      | '+' :: digits => (JsText.digitsValue (String.ofList digits)).map fun n => (n : ℤ)
      | digits => (JsText.digitsValue (String.ofList digits)).map fun n => (n : ℤ)
    else none

/-- The digits behind the point, if there is one, and what follows them. -/
def fraction : List Char → List Char × List Char
  | '.' :: cs => (cs.takeWhile Char.isDigit, cs.dropWhile Char.isDigit)
  | cs => ([], cs)

def ofUnsigned (cs : List Char) : Float :=
  if cs = "Infinity".toList then infinity
  else
    let whole := cs.takeWhile Char.isDigit
    let (decimals, rest) := fraction (cs.dropWhile Char.isDigit)
    if whole ++ decimals = [] then NaN
    else match exponent? rest with
      | none => NaN
      | some e => decimal (Nat.ofDigitChars 10 (whole ++ decimals) 0) (e - decimals.length)

def ofLetters : List Char → Float
  | [] => decimal 0 0
  | '+' :: cs => ofUnsigned cs
  | '-' :: cs => -ofUnsigned cs
  | '0' :: c :: digits =>
    if c = 'x' ∨ c = 'X' then ofBase 16 digits
    else if c = 'o' ∨ c = 'O' then ofBase 8 digits
    else if c = 'b' ∨ c = 'B' then ofBase 2 digits
    else ofUnsigned ('0' :: c :: digits)
  | cs => ofUnsigned cs

/-- `Number` of a text. -/
def ofText (text : String) : Float := ofLetters (JsText.trim text).toList

/-! ### Timers -/

/-- The longest delay. -/
def timeoutMax : ℕ := 2147483647

/-- For how many milliseconds a timer runs. A delay below one, beyond the longest, or that is no number
counts as one, and a fraction is cut off. -/
def timerDelay (after : Float) : ℕ :=
  if 1 ≤ after ∧ after ≤ .ofNat timeoutMax then after.toUInt64.toNat else 1

theorem timerDelay_NaN : timerDelay NaN = 1 := by rfl

/-! ### Rounding whole numbers

Up to 53 bits a whole number keeps its value. Beyond, its exponent is positive whatever is rounded off. -/

theorem shift_exact (m k : ℕ) : (⟨m * 2 ^ k, false, false⟩ : ExtendedMantissa) >>> k = ⟨m, false, false⟩ := by
  induction k generalizing m with
  | zero => simp [HShiftRight.hShiftRight, Nat.repeat]
  | succ k ih =>
    change ((⟨m * 2 ^ (k + 1), false, false⟩ : ExtendedMantissa) >>> k).shiftRightOne = _
    have hpow : m * 2 ^ (k + 1) = m * 2 * 2 ^ k := by rw [Nat.pow_succ', Nat.mul_assoc]
    rw [hpow, ih]
    simp [ExtendedMantissa.shiftRightOne]

theorem shift_mantissa (em : ExtendedMantissa) (k : ℕ) : (em >>> k).mantissa = em.mantissa / 2 ^ k := by
  induction k with
  | zero => simp [HShiftRight.hShiftRight, Nat.repeat]
  | succ k ih =>
    change (em >>> k).mantissa / 2 = _
    rw [ih, Nat.div_div_eq_div_mul, Nat.pow_succ]

theorem roundedMantissa_bounds (em : ExtendedMantissa) :
    em.mantissa ≤ em.roundedMantissa ∧ em.roundedMantissa ≤ em.mantissa + 1 := by
  obtain ⟨m, roundBit, stickyBit⟩ := em
  cases roundBit <;> cases stickyBit <;>
    simp [ExtendedMantissa.roundedMantissa, ExtendedMantissa.accuracy, Accuracy.roundToNearestEven]
  omega

theorem targetExponent_eq (m : ℕ) (e : ℤ) :
    Format.binary64.targetExponent (totalExponent m e) = max (m.log2 + e - 52) (-1074) := by
  simp only [Format.targetExponent, totalExponent, Format.mantissaBits, Format.minExponent]
  norm_num
  omega

theorem log2_mul_pow {n : ℕ} (hn : n ≠ 0) (k : ℕ) : (n * 2 ^ k).log2 = n.log2 + k := by
  have hne : n * 2 ^ k ≠ 0 := Nat.mul_ne_zero hn (Nat.two_pow_pos k).ne'
  have hle := Nat.log2_self_le hn
  have hlt := @Nat.lt_log2_self n
  rw [Nat.log2_eq_iff hne]
  constructor
  · rw [Nat.pow_add]
    exact Nat.mul_le_mul_right _ hle
  · rw [Nat.add_right_comm, Nat.pow_add]
    exact Nat.mul_lt_mul_of_pos_right hlt (Nat.two_pow_pos k)

/-- A shift by the distance to the exponent that is meant. -/
theorem shiftToTargetExponent_eq {m k : ℕ} {e : ℤ}
    (h : max ((m.log2 : ℤ) + e - 52) (-1074) - e = k) :
    shiftToTargetExponent Format.binary64 m e .exact = ((⟨m, false, false⟩ : ExtendedMantissa) >>> k, e + k) := by
  have ht : (Format.binary64.targetExponent (totalExponent m e) - e).toNat = k := by
    rw [targetExponent_eq]
    omega
  unfold shiftToTargetExponent shiftToExponent
  dsimp only
  rw [ht, ExtendedMantissa.ofMantissaAndAccuracy]

/-- The product that `decimal` rounds, for a whole number. -/
theorem ofScientific_whole {n : ℕ} (h0 : n ≠ 0) : UnpackedFloat.ofScientific Format.binary64 n 0 =
    roundWithAccuracy Format.binary64 .positive (n * 2 ^ 53) (-53) .exact := by
  have hmin : ¬ (0 : ℤ) < -(2 ^ Format.binary64.exponentBits + n.log2) := by
    change ¬ (0 : ℤ) < -(2048 + n.log2)
    omega
  have hproduct : (n <<< 53) * 10 ^ (0 : ℤ).toNat = n * 2 ^ 53 := by
    rw [Nat.shiftLeft_eq, Int.toNat_zero, Nat.pow_zero, Nat.mul_one]
  unfold UnpackedFloat.ofScientific
  rw [dif_neg h0, if_neg (by decide), if_neg hmin, if_pos le_rfl, ← hproduct]
  rfl

section Rounding

variable {n : ℕ}

/-- A whole number of at most 53 bits keeps its value, however many zeros it was given. -/
theorem round_scaled (sign : Sign) (h0 : n ≠ 0) {k : ℕ} (hk : 52 ≤ n.log2 + k) (hn : n.log2 ≤ 52)
    (hpos : 0 < n * 2 ^ (52 - n.log2)) : roundWithAccuracy Format.binary64 sign (n * 2 ^ k) (-k) .exact =
      .finite sign (n * 2 ^ (52 - n.log2)) (n.log2 - 52) hpos := by
  have hlog := log2_mul_pow h0 k
  have hnormal := log2_mul_pow h0 (52 - n.log2)
  have hfirst := @shiftToTargetExponent_eq (n * 2 ^ k) (n.log2 + k - 52) (-k) (by omega)
  have hsecond := @shiftToTargetExponent_eq (n * 2 ^ (52 - n.log2)) 0 (n.log2 - 52) (by omega)
  have hsplit : n * 2 ^ k = n * 2 ^ (52 - n.log2) * 2 ^ (n.log2 + k - 52) := by
    rw [Nat.mul_assoc, ← Nat.pow_add]
    congr 2
    omega
  have hexponent : (-k : ℤ) + ((n.log2 + k - 52 : ℕ) : ℤ) = n.log2 - 52 := by omega
  rw [hexponent, show (⟨n * 2 ^ k, false, false⟩ : ExtendedMantissa) >>> (n.log2 + k - 52) =
    ⟨n * 2 ^ (52 - n.log2), false, false⟩ by rw [hsplit, shift_exact]] at hfirst
  unfold roundWithAccuracy
  rw [hfirst]
  dsimp only
  rw [show (⟨n * 2 ^ (52 - n.log2), false, false⟩ : ExtendedMantissa).roundedMantissa =
    n * 2 ^ (52 - n.log2) from rfl, hsecond]
  change (if h : n * 2 ^ (52 - n.log2) = 0 then _ else _) = _
  rw [dif_neg hpos.ne']
  congr 1
  omega

theorem round_whole (h0 : n ≠ 0) (hn : n.log2 ≤ 52) (hpos : 0 < n * 2 ^ (52 - n.log2)) :
    roundWithAccuracy Format.binary64 .positive (n * 2 ^ 53) (-53) .exact =
      .finite .positive (n * 2 ^ (52 - n.log2)) (n.log2 - 52) hpos :=
  round_scaled .positive h0 (by omega) hn hpos

/-- What the first shift leaves of a large number: 53 bits, and what is below them. -/
theorem shifted_bounds (h0 : n ≠ 0) :
    2 ^ 52 ≤ ((⟨n * 2 ^ 53, false, false⟩ : ExtendedMantissa) >>> (n.log2 + 1)).mantissa ∧
      ((⟨n * 2 ^ 53, false, false⟩ : ExtendedMantissa) >>> (n.log2 + 1)).mantissa < 2 ^ 53 := by
  have hle := Nat.log2_self_le h0
  have hlt := @Nat.lt_log2_self n
  rw [shift_mantissa, Nat.le_div_iff_mul_le (Nat.two_pow_pos _), Nat.div_lt_iff_lt_mul (Nat.two_pow_pos _)]
  constructor
  · calc 2 ^ 52 * 2 ^ (n.log2 + 1) = 2 ^ n.log2 * 2 ^ 53 := by
          rw [← Nat.pow_add, ← Nat.pow_add]
          congr 1
          omega
      _ ≤ n * 2 ^ 53 := Nat.mul_le_mul_right _ hle
  · rw [Nat.mul_comm]
    exact Nat.mul_lt_mul_of_pos_left hlt (Nat.two_pow_pos 53)

theorem round_large (hn : 53 ≤ n.log2) : ∃ m e, ∃ hm : 0 < m,
    roundWithAccuracy Format.binary64 .positive (n * 2 ^ 53) (-53) .exact = .finite .positive m e hm ∧
      m.log2 = 52 ∧ 1 ≤ e := by
  have h0 : n ≠ 0 := by
    rintro rfl
    simp at hn
  have hlog := log2_mul_pow h0 53
  have hfirst := @shiftToTargetExponent_eq (n * 2 ^ 53) (n.log2 + 1) (-53) (by omega)
  obtain ⟨hlow, hhigh⟩ := shifted_bounds h0
  have hrounded := roundedMantissa_bounds ((⟨n * 2 ^ 53, false, false⟩ : ExtendedMantissa) >>> (n.log2 + 1))
  unfold roundWithAccuracy
  rw [hfirst]
  dsimp only
  generalize (⟨n * 2 ^ 53, false, false⟩ : ExtendedMantissa) >>> (n.log2 + 1) = em at *
  rcases Nat.lt_or_ge em.roundedMantissa (2 ^ 53) with hfits | hcarry
  · have hbits : em.roundedMantissa.log2 = 52 := (Nat.log2_eq_iff (by omega)).mpr ⟨by omega, hfits⟩
    have hsecond := @shiftToTargetExponent_eq em.roundedMantissa 0 (-53 + ((n.log2 + 1 : ℕ) : ℤ)) (by omega)
    rw [hsecond]
    have hne : ¬ em.roundedMantissa = 0 := by omega
    exact ⟨em.roundedMantissa, _, Nat.pos_of_ne_zero hne, dif_neg hne, hbits, by omega⟩
  · -- all ones are rounded up to the next power of two
    have hcarried : em.roundedMantissa = 2 ^ 53 := by omega
    have hbits : (2 ^ 53 : ℕ).log2 = 53 := Nat.log2_two_pow
    have hsecond := @shiftToTargetExponent_eq (2 ^ 53) 1 (-53 + ((n.log2 + 1 : ℕ) : ℤ)) (by omega)
    rw [hcarried, hsecond, show (⟨2 ^ 53, false, false⟩ : ExtendedMantissa) >>> 1 = ⟨2 ^ 52, false, false⟩ from
      shift_exact (2 ^ 52) 1]
    exact ⟨2 ^ 52, _, Nat.two_pow_pos 52, dif_neg (Nat.two_pow_pos 52).ne', Nat.log2_two_pow, by omega⟩

end Rounding

/-! ### Packing -/

section Packing

variable {m : ℕ} {e : ℤ}

theorem unpack_pack_normal (sign : Sign) (hm : 0 < m) (hlog : m.log2 = 52) (hlow : -1074 ≤ e) (hhigh : e ≤ 971) :
    (Float.Model.pack (.finite sign m e hm)).unpack = .finite sign m e hm := by
  have hbits := (Nat.log2_eq_iff hm.ne').mp hlog
  have hmantissa : (1#1 ++ BitVec.ofNat 52 m).toNat = m := by
    have himplicit : (1#1).toNat <<< 52 = 2 ^ 52 := rfl
    have hrest : (BitVec.ofNat 52 m).toNat = m % 2 ^ 52 := BitVec.toNat_ofNat ..
    rw [BitVec.toNat_append, ← Nat.shiftLeft_add_eq_or_of_lt (BitVec.isLt _)]
    omega
  have hexponent : (BitVec.ofNat 11 (e + 1023 + 52).toNat).toNat = (e + 1075).toNat := by
    rw [BitVec.toNat_ofNat]
    omega
  have hnormal : BitVec.ofNat 11 (e + 1023 + 52).toNat ≠ 0#11 := by
    intro h
    rw [h] at hexponent
    change 0 = _ at hexponent
    omega
  have hfinite : BitVec.ofNat 11 (e + 1023 + 52).toNat ≠ -1#11 := by
    intro h
    rw [h] at hexponent
    change 2047 = _ at hexponent
    omega
  have hpack : UnpackedFloat.pack Format.binary64 (.finite sign m e hm) =
      packComponents Format.binary64 sign (BitVec.ofNat 11 (e + 1023 + 52).toNat) (BitVec.ofNat 52 m) := by
    have hbiased : ¬ 2048 ≤ (e + 1023 + 52).toNat + 1 := by omega
    unfold UnpackedFloat.pack
    exact (if_neg hbiased).trans (if_pos (congrArg (· + 1) hlog))
  have hvalue : ((BitVec.ofNat 11 (e + 1023 + 52).toNat).toNat : ℤ) - (1023 + 52) = e := by omega
  unfold Float.Model.unpack Float.Model.pack
  dsimp only
  rw [hpack]
  unfold UnpackedFloat.unpack
  simp only [unpackMantissa_packComponents, unpackExponent_packComponents, unpackSign_packComponents]
  rw [if_neg hfinite, if_neg hnormal]
  congr 1
  cases sign <;> rfl

/-- An exponent beyond the format makes it infinite. -/
theorem unpack_pack_overflow (hm : 0 < m) (hhigh : 971 < e) :
    (Float.Model.pack (.finite .positive m e hm)).unpack = .infinity .positive := by
  have hbiased : 2048 ≤ (e + 1023 + 52).toNat + 1 := by omega
  have hpack : UnpackedFloat.pack Format.binary64 (.finite .positive m e hm) =
      packedInfinity Format.binary64 .positive := by
    unfold UnpackedFloat.pack
    exact if_pos hbiased
  unfold Float.Model.unpack Float.Model.pack
  dsimp only
  rw [hpack]
  rfl

end Packing

/-! ### Timers set to whole numbers -/

section Whole

variable {n : ℕ}

theorem unpack_whole (h0 : n ≠ 0) (hn : n.log2 ≤ 52) (hpos : 0 < n * 2 ^ (52 - n.log2)) :
    (decimal n 0).toModel.unpack = .finite .positive (n * 2 ^ (52 - n.log2)) (n.log2 - 52) hpos := by
  have hlog := log2_mul_pow h0 (52 - n.log2)
  unfold decimal Float.Model.ofScientific
  rw [ofScientific_whole h0, round_whole h0 hn hpos]
  exact unpack_pack_normal .positive hpos (by omega) (by omega) (by omega)

theorem unpack_large (hn : 53 ≤ n.log2) : (decimal n 0).toModel.unpack = .infinity .positive ∨
    ∃ m e hm, (decimal n 0).toModel.unpack = .finite .positive m e hm ∧ 1 ≤ e := by
  have h0 : n ≠ 0 := by
    rintro rfl
    simp at hn
  obtain ⟨m, e, hm, hround, hlog, he⟩ := round_large hn
  unfold decimal Float.Model.ofScientific
  rw [ofScientific_whole h0, hround]
  rcases lt_or_ge 971 e with hover | hfits
  · exact .inl (unpack_pack_overflow hm hover)
  · exact .inr ⟨m, e, hm, unpack_pack_normal .positive hm hlog (by omega) hfits, he⟩

theorem le_iff {x y : Float} : x ≤ y ↔ x.toModel.unpack.le y.toModel.unpack = true := decide_eq_true_iff

/-- Numbers of one exponent are in the order of their mantissas. -/
theorem finite_le_iff {m m' : ℕ} {e e' : ℤ} {hm : 0 < m} {hm' : 0 < m'} :
    UnpackedFloat.le (.finite .positive m e hm) (.finite .positive m' e' hm') = true ↔
      e < e' ∨ e = e' ∧ m ≤ m' := by
  show ((compare e e').then (compare m m')).isLE = true ↔ _
  rcases lt_trichotomy e e' with h | h | h
  · simp [Int.compare_eq_lt.mpr h, h]
  · subst h
    simp [Nat.isLE_compare]
  · simp [Int.compare_eq_gt.mpr h, h.not_gt, h.ne']

theorem one_unpack : (1 : Float).toModel.unpack = .finite .positive (2 ^ 52) (-52) (Nat.two_pow_pos 52) := by rfl

theorem timeoutMax_unpack : (Float.ofNat timeoutMax).toModel.unpack =
    .finite .positive (timeoutMax * 2 ^ 22) (-22) (by decide) := by rfl

theorem one_le_whole (h0 : n ≠ 0) (hn : n.log2 ≤ 52) : 1 ≤ decimal n 0 := by
  have hpos : 0 < n * 2 ^ (52 - n.log2) := Nat.mul_pos (Nat.pos_of_ne_zero h0) (Nat.two_pow_pos _)
  rw [le_iff, one_unpack, unpack_whole h0 hn hpos, finite_le_iff]
  by_cases hlog : n.log2 = 0
  · refine .inr ⟨by omega, ?_⟩
    rw [hlog]
    exact Nat.le_mul_of_pos_left _ (Nat.pos_of_ne_zero h0)
  · exact .inl (by omega)

theorem whole_le_timeoutMax (h0 : n ≠ 0) : decimal n 0 ≤ .ofNat timeoutMax ↔ n ≤ timeoutMax := by
  have hmax : timeoutMax = 2 ^ 31 - 1 := rfl
  rw [le_iff, timeoutMax_unpack]
  rcases Nat.lt_or_ge 52 n.log2 with hlarge | hn
  · have hlt : ¬ n ≤ timeoutMax := by
      have := (Nat.le_log2 h0).mp hlarge
      omega
    rcases unpack_large hlarge with h | ⟨m, e, hm, h, he⟩
    · rw [h]
      simp [hlt, UnpackedFloat.le, UnpackedFloat.compare]
    · rw [h, finite_le_iff]
      omega
  · have hpos : 0 < n * 2 ^ (52 - n.log2) := Nat.mul_pos (Nat.pos_of_ne_zero h0) (Nat.two_pow_pos _)
    rw [unpack_whole h0 hn hpos, finite_le_iff]
    rcases lt_trichotomy n.log2 30 with hlog | hlog | hlog
    · have := (Nat.log2_lt h0).mp hlog
      omega
    · rw [hlog]
      simp
    · have := (Nat.le_log2 h0).mp hlog
      omega

/-- Cutting off what is behind the point gives back a number that has nothing there. -/
theorem roundToInt_whole (hn : n.log2 ≤ 52) :
    roundToInt .positive (n * 2 ^ (52 - n.log2)) (n.log2 - 52) = n := by
  have hincrease : ((n.log2 : ℤ) - 52 - 0).toNat = 0 := by omega
  have hdecrease : decreaseExponent (n * 2 ^ (52 - n.log2)) (n.log2 - 52) 0 =
      (n * 2 ^ (52 - n.log2), (n.log2 : ℤ) - 52) := by
    unfold decreaseExponent
    dsimp only
    rw [hincrease, Nat.shiftLeft_zero, Int.ofNat_zero, Int.sub_zero]
  have hshift : (0 - ((n.log2 : ℤ) - 52)).toNat = 52 - n.log2 := by omega
  unfold roundToInt
  rw [hdecrease]
  unfold shiftToExponent
  dsimp only
  rw [hshift, ExtendedMantissa.ofMantissaAndAccuracy, shift_exact]
  rfl

theorem toUInt64_whole (h0 : n ≠ 0) (hn : n ≤ timeoutMax) : (decimal n 0).toUInt64.toNat = n := by
  have hmax : timeoutMax = 2 ^ 31 - 1 := rfl
  have hlog : n.log2 ≤ 52 := Nat.le_of_lt_succ ((Nat.log2_lt h0).mpr (by omega))
  have hpos : 0 < n * 2 ^ (52 - n.log2) := Nat.mul_pos (Nat.pos_of_ne_zero h0) (Nat.two_pow_pos _)
  have hsize : n < UInt64.size := lt_of_le_of_lt hn (by decide)
  show (UInt64.ofNatClamp ((decimal n 0).toModel.unpack.toInt 0 (UInt64.size - 1)).toNat).toNat = n
  rw [unpack_whole h0 hlog hpos]
  show (UInt64.ofNatClamp (roundToInt .positive _ _).toNat).toNat = n
  rw [roundToInt_whole hlog, Int.toNat_natCast, UInt64.ofNatClamp_eq_ofNat _ hsize]
  exact UInt64.toNat_ofNat_of_lt hsize

theorem timerDelay_whole (n : ℕ) : timerDelay (decimal n 0) = if 1 ≤ n ∧ n ≤ timeoutMax then n else 1 := by
  unfold timerDelay
  by_cases h0 : n = 0
  · subst h0
    rfl
  · have hone : 1 ≤ n := Nat.one_le_iff_ne_zero.mpr h0
    by_cases hn : n ≤ timeoutMax
    · have hlog : n.log2 ≤ 52 := Nat.le_of_lt_succ ((Nat.log2_lt h0).mpr (lt_of_le_of_lt hn (by decide)))
      rw [if_pos ⟨one_le_whole h0 hlog, (whole_le_timeoutMax h0).mpr hn⟩, if_pos ⟨hone, hn⟩]
      exact toUInt64_whole h0 hn
    · rw [if_neg fun h => hn ((whole_le_timeoutMax h0).mp h.2), if_neg fun h => hn h.2]

end Whole

/-! ### Reading texts -/

theorem isDigit_not_whiteSpace {c : Char} (h : c.isDigit = true) : JsText.isWhiteSpace c = false := by
  have hrange : 48 ≤ c.toNat ∧ c.toNat ≤ 57 := by
    simpa [Char.isDigit, UInt32.le_iff_toNat_le] using h
  simp [JsText.isWhiteSpace]
  omega

theorem ofUnsigned_digits {cs : List Char} (hne : cs ≠ []) (h : ∀ c ∈ cs, c.isDigit = true) :
    ofUnsigned cs = decimal (Nat.ofDigitChars 10 cs 0) 0 := by
  have hinfinity : cs ≠ "Infinity".toList := by
    rintro rfl
    exact absurd (h 'I' (by decide)) (by decide)
  have hwhole : cs.takeWhile Char.isDigit = cs := List.takeWhile_eq_self_iff.mpr h
  have hrest : cs.dropWhile Char.isDigit = [] := List.dropWhile_eq_nil_iff.mpr h
  unfold ofUnsigned
  rw [if_neg hinfinity, hwhole, hrest]
  simp [fraction, exponent?, hne]

/-- A text of digits is a whole number. -/
theorem ofText_digits {text : String} {n : ℕ} (h : JsText.digitsValue text = some n) :
    ofText text = decimal n 0 := by
  obtain ⟨hne, hdigits, rfl⟩ := JsText.digitsValue_eq_some h
  have htrim : JsText.trim text = text := JsText.trim_eq_self fun c hc => isDigit_not_whiteSpace (hdigits c hc)
  rw [ofText, htrim, ← ofUnsigned_digits hne hdigits]
  unfold ofLetters
  split
  · contradiction
  · rename_i heq
    exact absurd (hdigits '+' (heq ▸ List.mem_cons_self)) (by decide)
  · rename_i heq
    exact absurd (hdigits '-' (heq ▸ List.mem_cons_self)) (by decide)
  · rename_i c digits heq
    -- the letter of a base would be a digit
    have hc := hdigits c (heq ▸ List.mem_cons_of_mem _ List.mem_cons_self)
    rw [if_neg, if_neg, if_neg, heq]
    all_goals
      rintro (rfl | rfl) <;> exact absurd hc (by decide)
  · rfl

theorem isAlpha_range {c : Char} (h : c.isAlpha = true) :
    65 ≤ c.toNat ∧ c.toNat ≤ 90 ∨ 97 ≤ c.toNat ∧ c.toNat ≤ 122 := by
  simpa [Char.isAlpha, Char.isUpper, Char.isLower, UInt32.le_iff_toNat_le] using h

theorem isAlpha_ne {c d : Char} (h : c.isAlpha = true) (hd : d.isAlpha = false) : c ≠ d := by
  rintro rfl
  rw [h] at hd
  cases hd

theorem ofUnsigned_letter {c : Char} {cs : List Char} (hc : c.isAlpha = true) (hI : c ≠ 'I') :
    ofUnsigned (c :: cs) = NaN := by
  have hrange := isAlpha_range hc
  have hdigit : c.isDigit = false := by
    simp [Char.isDigit, UInt32.le_iff_toNat_le]
    omega
  have hinfinity : c :: cs ≠ "Infinity".toList := fun heq => hI (List.cons_eq_cons.mp heq).1
  have hwhole : (c :: cs).takeWhile Char.isDigit = [] := List.takeWhile_cons_of_neg (by simp [hdigit])
  have hrest : (c :: cs).dropWhile Char.isDigit = c :: cs := List.dropWhile_cons_of_neg (by simp [hdigit])
  have hfraction : fraction (c :: cs) = ([], c :: cs) := by
    unfold fraction
    split
    · rename_i heq
      exact absurd (List.cons_eq_cons.mp heq).1 (isAlpha_ne hc (by decide))
    · rfl
  unfold ofUnsigned
  rw [if_neg hinfinity, hwhole, hrest, hfraction]
  rfl

/-- A text that begins with a letter is no number, unless it begins as `Infinity` does. -/
theorem ofText_letter {text : String} {c : Char} {cs : List Char} (h : text.toList = c :: cs)
    (hc : c.isAlpha = true) (hI : c ≠ 'I') : ofText text = NaN := by
  have hrange := isAlpha_range hc
  have hspace : JsText.isWhiteSpace c = false := by
    simp [JsText.isWhiteSpace]
    omega
  obtain ⟨rest, htrim⟩ := JsText.toList_trim_cons h hspace
  rw [ofText, htrim]
  unfold ofLetters
  split
  · rename_i heq
    cases heq
  · rename_i heq
    exact absurd (List.cons_eq_cons.mp heq).1 (isAlpha_ne hc (by decide))
  · rename_i heq
    exact absurd (List.cons_eq_cons.mp heq).1 (isAlpha_ne hc (by decide))
  · rename_i heq
    exact absurd (List.cons_eq_cons.mp heq).1 (isAlpha_ne hc (by decide))
  · exact ofUnsigned_letter hc hI

example : timerDelay (ofText " 2.5e3 ") = 2500 := by decide +kernel

end FinP2PAdapter.JsNumber
