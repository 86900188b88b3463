import Mathlib.Data.Nat.Digits.Lemmas

/-! Byte strings read as big-endian numbers, and the 32-byte word that holds a
number below `2 ^ 256`. -/

namespace FinP2PAdapter.Words

/-- The number a byte string denotes, most significant byte first. -/
def bigEndian (bytes : List UInt8) : ℕ := Nat.ofDigits 256 (bytes.reverse.map UInt8.toNat)

/-- The bytes of a word, padded to 32. -/
def word (n : ℕ) : List UInt8 := ((Nat.digitsAppend 256 32 n).map UInt8.ofNat).reverse

theorem length_word {n : ℕ} (h : n < 2 ^ 256) : (word n).length = 32 := by
  have hn : n < 256 ^ 32 := h
  simp only [word, List.length_reverse, List.length_map]
  exact Nat.length_digitsAppend (by omega) 32 hn

theorem bigEndian_word (n : ℕ) : bigEndian (word n) = n := by
  have hid : ((Nat.digitsAppend 256 32 n).map UInt8.ofNat).map UInt8.toNat =
      Nat.digitsAppend 256 32 n := by
    rw [List.map_map]
    refine (List.map_congr_left fun d hd => ?_).trans (List.map_id _)
    have hlt : d < 256 := Nat.lt_of_mem_digitsAppend (by omega) 32 d hd
    exact UInt8.toNat_ofNat_of_lt' hlt
  rw [bigEndian, word, List.reverse_reverse, hid, Nat.digitsAppend, Nat.ofDigits_append_replicate_zero,
    Nat.ofDigits_digits]

end FinP2PAdapter.Words
