import FinP2PAdapter.Library.JsNumber

/-! Differences of numbers of the language, what `parseFloat` reads and how a number is written. Whole numbers of at
most 53 bits have their own difference, and are written with their digits. -/

namespace FinP2PAdapter.JsNumber

open Float.Model Float.Model.UnpackedFloat

/-! ### `parseFloat` -/

/-- The exponent that a text begins with. Without digits it is no exponent. -/
def leadingExponent : List Char → ℤ
  | [] => 0
  | e :: cs =>
    if e = 'e' ∨ e = 'E' then
      match cs with
      | '-' :: digits => -(Nat.ofDigitChars 10 (digits.takeWhile Char.isDigit) 0 : ℤ)
      | '+' :: digits => (Nat.ofDigitChars 10 (digits.takeWhile Char.isDigit) 0 : ℤ)
      | digits => (Nat.ofDigitChars 10 (digits.takeWhile Char.isDigit) 0 : ℤ)
    else 0

def leadingNumber (cs : List Char) : Float :=
  if "Infinity".toList.isPrefixOf cs then infinity
  else
    let whole := cs.takeWhile Char.isDigit
    let (decimals, rest) := fraction (cs.dropWhile Char.isDigit)
    if whole ++ decimals = [] then NaN
    else decimal (Nat.ofDigitChars 10 (whole ++ decimals) 0) (leadingExponent rest - decimals.length)

/-- `parseFloat` of a text: the number that it begins with. -/
def parseFloat (text : String) : Float :=
  match text.toList.dropWhile JsText.isWhiteSpace with
  | '+' :: cs => leadingNumber cs
  | '-' :: cs => -leadingNumber cs
  | cs => leadingNumber cs

/-! ### How a number is written -/

/-- How many digits `p / q` has before its point, or less as many zeros as follow the point. -/
def decimalExponent (p q : ℕ) : ℤ :=
  if q ≤ p then Nat.log 10 (p / q) + 1 else 1 - (Nat.clog 10 ((q + p - 1) / p) : ℤ)

/-- The number of `k` digits nearest to `p / q`, if it reads as the number. -/
def digitsOf? (x : Float) (p q k : ℕ) : Option (ℕ × ℤ) :=
  let t := decimalExponent p q - k
  let p := p * 10 ^ (-t).toNat
  let q := q * 10 ^ t.toNat
  let below := p / q
  let nearest :=
    if 2 * (p % q) < q ∨ 2 * (p % q) = q ∧ below % 2 = 0 then [below, below + 1] else [below + 1, below]
  (nearest.find? fun s => decimal s t == x).map fun s => if s = 10 ^ k then (1, t + k) else (s, t)

/-- As few digits as read as the number, and their exponent. -/
def shortest (x : Float) (p q : ℕ) : ℕ × ℤ :=
  ((List.range 17).findSome? fun k => digitsOf? x p q (k + 1)).getD (0, 0)

/-- `digits * 10 ^ t`, with a point or an exponent where the digits are not all. -/
def writeDigits (s : ℕ) (t : ℤ) : String :=
  let digits := (toString s).toList
  let n := digits.length + t
  if 0 ≤ t ∧ n ≤ 21 then String.ofList (digits ++ List.replicate t.toNat '0')
  else if 0 < n ∧ n ≤ 21 then String.ofList (digits.take n.toNat ++ '.' :: digits.drop n.toNat)
  else if -6 < n ∧ n ≤ 0 then String.ofList ('0' :: '.' :: (List.replicate (-n).toNat '0' ++ digits))
  else
    String.ofList (digits.take 1 ++ if digits.length = 1 then [] else '.' :: digits.drop 1) ++
      (if 0 < n then "e+" else "e-") ++ toString (n - 1).natAbs

/-- A number above zero, `m * 2 ^ e`. The shortest digits of a whole number of at most 53 bits are its own, since no
other whole number reads as it. -/
def writePositive (m : ℕ) (e : ℤ) (hm : 0 < m) : String :=
  let p := m * 2 ^ e.toNat
  let q := 2 ^ (-e).toNat
  if p % q = 0 ∧ p / q < 2 ^ 53 then toString (p / q)
  else
    let digits := shortest (.ofModel (.pack (.finite .positive m e hm))) p q
    writeDigits digits.1 digits.2

def signText : Sign → String
  | .positive => ""
  | .negative => "-"

/-- The text of a number. -/
def toText (x : Float) : String :=
  match x.toModel.unpack with
  | .notANumber => "NaN"
  | .infinity sign => signText sign ++ "Infinity"
  | .zero _ => "0"
  | .finite sign m e hm => signText sign ++ writePositive m e hm

/-! ### Differences of whole numbers -/

section Whole

variable {n m : ℕ}

theorem significand_pos (h0 : n ≠ 0) : 0 < n * 2 ^ (52 - n.log2) :=
  Nat.mul_pos (Nat.pos_of_ne_zero h0) (Nat.two_pow_pos _)

theorem log2_le_of_le (hn : n.log2 ≤ 52) (hm : m ≤ n) : m.log2 ≤ 52 := by
  rcases Nat.eq_zero_or_pos m with rfl | hpos
  · simp
  · have hlt := (Nat.log2_lt (k := 53) (by omega : n ≠ 0)).mp (by omega)
    exact Nat.le_of_lt_succ ((Nat.log2_lt hpos.ne').mpr (lt_of_le_of_lt hm hlt))

/-- A whole number of at most 53 bits, with its sign. -/
def whole (sign : Sign) (n : ℕ) (h0 : n ≠ 0) : Float :=
  .ofModel (.pack (.finite sign (n * 2 ^ (52 - n.log2)) (n.log2 - 52) (significand_pos h0)))

theorem unpack_signed (sign : Sign) (h0 : n ≠ 0) (hn : n.log2 ≤ 52) : (whole sign n h0).toModel.unpack =
    .finite sign (n * 2 ^ (52 - n.log2)) (n.log2 - 52) (significand_pos h0) := by
  have hlog := log2_mul_pow h0 (52 - n.log2)
  exact unpack_pack_normal sign (significand_pos h0) (by omega) (by omega) (by omega)

theorem decimal_whole (h0 : n ≠ 0) (hn : n.log2 ≤ 52) : decimal n 0 = whole .positive n h0 := by
  unfold decimal Float.Model.ofScientific
  rw [ofScientific_whole h0, round_whole h0 hn (significand_pos h0)]
  rfl

theorem neg_whole (h0 : n ≠ 0) (hn : n.log2 ≤ 52) (sign : Sign) : -whole sign n h0 = whole (-sign) n h0 := by
  show Float.ofModel (.pack (whole sign n h0).toModel.unpack.neg) = _
  rw [unpack_signed sign h0 hn]
  rfl

/-- A whole number of at most 53 bits is rounded to itself, whatever exponent it is given with. -/
theorem round_exact (sign : Sign) (h0 : n ≠ 0) (hn : n.log2 ≤ 52) (k : ℕ) :
    UnpackedFloat.round Format.binary64 sign (n * 2 ^ k) (-k) =
      .finite sign (n * 2 ^ (52 - n.log2)) (n.log2 - 52) (significand_pos h0) := by
  have hlog := log2_mul_pow h0 k
  have htarget : Format.binary64.targetExponent (totalExponent (n * 2 ^ k) (-k)) = n.log2 - 52 := by
    rw [targetExponent_eq]
    omega
  have hshift : (-k - ((n.log2 : ℤ) - 52)).toNat = 52 - n.log2 - k := by omega
  have hdecrease : decreaseExponent (n * 2 ^ k) (-k) (n.log2 - 52) =
      (n * 2 ^ (k + (52 - n.log2 - k)), -((k + (52 - n.log2 - k) : ℕ) : ℤ)) := by
    unfold decreaseExponent
    dsimp only
    rw [hshift, Nat.shiftLeft_eq, Nat.mul_assoc, ← Nat.pow_add]
    congr 1
    omega
  unfold UnpackedFloat.round
  dsimp only
  rw [htarget, hdecrease]
  exact round_scaled sign h0 (by omega) hn (significand_pos h0)

/-- Both numbers are brought to the smaller exponent. -/
theorem sub_aligned (hn0 : n ≠ 0) (hm0 : m ≠ 0) (hn : n.log2 ≤ 52) (hm : m.log2 ≤ 52) :
    decimal n 0 - decimal m 0 = .ofModel (.pack (normalize Format.binary64
      ((n : ℤ) * 2 ^ (52 - min n.log2 m.log2) - m * 2 ^ (52 - min n.log2 m.log2))
      (-((52 - min n.log2 m.log2 : ℕ) : ℤ)) .positive)) := by
  have hsmaller : min ((n.log2 : ℤ) - 52) (m.log2 - 52) = -((52 - min n.log2 m.log2 : ℕ) : ℤ) := by omega
  have haligned : ∀ a : ℕ, a.log2 ≤ 52 → min n.log2 m.log2 ≤ a.log2 →
      (decreaseExponent (a * 2 ^ (52 - a.log2)) (a.log2 - 52) (-((52 - min n.log2 m.log2 : ℕ) : ℤ))).1 =
        a * 2 ^ (52 - min n.log2 m.log2) := by
    intro a ha hmin
    unfold decreaseExponent
    dsimp only
    rw [Nat.shiftLeft_eq, Nat.mul_assoc, ← Nat.pow_add]
    congr 2
    omega
  rw [decimal_whole hn0 hn, decimal_whole hm0 hm]
  show Float.ofModel (.pack (UnpackedFloat.sub Format.binary64 (whole .positive n hn0).toModel.unpack
    (whole .positive m hm0).toModel.unpack)) = _
  rw [unpack_signed .positive hn0 hn, unpack_signed .positive hm0 hm]
  unfold UnpackedFloat.sub
  dsimp only
  rw [hsmaller, haligned n hn (Nat.min_le_left ..), haligned m hm (Nat.min_le_right ..)]
  simp only [Sign.apply, Nat.cast_mul, Nat.cast_pow, Nat.cast_ofNat]

theorem unpack_zero : (decimal 0 0).toModel.unpack = .zero .positive := by rfl

theorem sub_of_lt (h : m < n) (hn : n.log2 ≤ 52) : decimal n 0 - decimal m 0 = decimal (n - m) 0 := by
  have hn0 : n ≠ 0 := by omega
  have hd0 : n - m ≠ 0 := by omega
  have hd := log2_le_of_le hn (Nat.sub_le n m)
  rcases Nat.eq_zero_or_pos m with rfl | hm
  · rw [Nat.sub_zero, decimal_whole hn0 hn]
    show Float.ofModel (.pack (UnpackedFloat.sub Format.binary64 (whole .positive n hn0).toModel.unpack
      (decimal 0 0).toModel.unpack)) = _
    rw [unpack_signed .positive hn0 hn, unpack_zero]
    rfl
  · rw [sub_aligned hn0 hm.ne' hn (log2_le_of_le hn h.le), decimal_whole hd0 hd]
    generalize 52 - min n.log2 m.log2 = k
    have hdifference : (n : ℤ) * 2 ^ k - m * 2 ^ k = ((n - m) * 2 ^ k : ℕ) := by
      rw [← Int.sub_mul, Nat.cast_mul, Nat.cast_sub h.le]
      norm_cast
    have hpos : (0 : ℤ) < ((n - m) * 2 ^ k : ℕ) :=
      Int.natCast_pos.mpr (Nat.mul_pos (Nat.pos_of_ne_zero hd0) (Nat.two_pow_pos k))
    unfold UnpackedFloat.normalize
    rw [hdifference, Int.compare_eq_gt.mpr hpos]
    dsimp only
    rw [Int.toNat_natCast, round_exact .positive hd0 hd]
    rfl

theorem sub_of_gt (h : n < m) (hm : m.log2 ≤ 52) : decimal n 0 - decimal m 0 = -decimal (m - n) 0 := by
  have hm0 : m ≠ 0 := by omega
  have hd0 : m - n ≠ 0 := by omega
  have hd := log2_le_of_le hm (Nat.sub_le m n)
  rw [decimal_whole hd0 hd, neg_whole hd0 hd]
  rcases Nat.eq_zero_or_pos n with rfl | hn
  · rw [decimal_whole hm0 hm]
    show Float.ofModel (.pack (UnpackedFloat.sub Format.binary64 (decimal 0 0).toModel.unpack
      (whole .positive m hm0).toModel.unpack)) = _
    rw [unpack_signed .positive hm0 hm, unpack_zero]
    rfl
  · rw [sub_aligned hn.ne' hm0 (log2_le_of_le hm h.le) hm]
    generalize 52 - min n.log2 m.log2 = k
    have hdifference : (n : ℤ) * 2 ^ k - m * 2 ^ k = -((m - n) * 2 ^ k : ℕ) := by
      rw [← Int.sub_mul, Nat.cast_mul, Nat.cast_sub h.le, ← Int.neg_mul, Int.neg_sub]
      norm_cast
    have hpos : (0 : ℤ) < ((m - n) * 2 ^ k : ℕ) :=
      Int.natCast_pos.mpr (Nat.mul_pos (Nat.pos_of_ne_zero hd0) (Nat.two_pow_pos k))
    unfold UnpackedFloat.normalize
    rw [hdifference, Int.compare_eq_lt.mpr (Int.neg_neg_of_pos hpos)]
    dsimp only
    rw [Int.neg_neg, Int.toNat_natCast, round_exact .negative hd0 hd]
    rfl

theorem sub_self_whole (hn : n.log2 ≤ 52) : decimal n 0 - decimal n 0 = decimal 0 0 := by
  rcases Nat.eq_zero_or_pos n with rfl | hpos
  · rfl
  · rw [sub_aligned hpos.ne' hpos.ne' hn hn, Int.sub_self]
    rfl

/-! ### Signs and texts of whole numbers -/

theorem lt_iff {x y : Float} : x < y ↔ x.toModel.unpack.lt y.toModel.unpack = true := decide_eq_true_iff

theorem zero_unpack : (0 : Float).toModel.unpack = .zero .positive := by rfl

theorem whole_pos (h0 : n ≠ 0) (hn : n.log2 ≤ 52) : 0 < decimal n 0 ∧ ¬ decimal n 0 < 0 := by
  rw [decimal_whole h0 hn, lt_iff, lt_iff, unpack_signed .positive h0 hn, zero_unpack]
  exact ⟨rfl, Bool.false_ne_true⟩

theorem whole_neg (h0 : n ≠ 0) (hn : n.log2 ≤ 52) : -decimal n 0 < 0 ∧ ¬ 0 < -decimal n 0 := by
  rw [decimal_whole h0 hn, neg_whole h0 hn, lt_iff, lt_iff, unpack_signed _ h0 hn, zero_unpack]
  exact ⟨rfl, Bool.false_ne_true⟩

theorem zero_not_signed : ¬ 0 < decimal 0 0 ∧ ¬ decimal 0 0 < 0 := by
  rw [lt_iff, lt_iff, unpack_zero, zero_unpack]
  exact ⟨Bool.false_ne_true, Bool.false_ne_true⟩

/-- Different whole numbers are different. -/
theorem decimal_inj (hn : n.log2 ≤ 52) (hm : m.log2 ≤ 52) (h : decimal n 0 = decimal m 0) : n = m := by
  rcases lt_trichotomy n m with hlt | rfl | hgt
  · have hpos := whole_neg (by omega) (log2_le_of_le hm (Nat.sub_le m n))
    rw [← sub_of_gt hlt hm, h, sub_self_whole hm] at hpos
    exact absurd hpos.1 zero_not_signed.2
  · rfl
  · have hpos := whole_pos (by omega) (log2_le_of_le hn (Nat.sub_le n m))
    rw [← sub_of_lt hgt hn, h, sub_self_whole hm] at hpos
    exact absurd hpos.1 zero_not_signed.1

end Whole

/-- A difference that is no whole number is written with as many digits as it takes to read it. -/
example : toText (parseFloat "0.3" - parseFloat "0.1") = "0.19999999999999998" := by decide +kernel

end FinP2PAdapter.JsNumber
