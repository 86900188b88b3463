import Mathlib.Tactic.Common
import Mathlib.Data.Nat.Notation

/-! Strings compared up to the case of their ASCII letters, as hexadecimal
addresses are. Lowering is idempotent, so a lowered string may stand for the
one it came from. -/

namespace FinP2PAdapter

theorem char_toLower_toLower (c : Char) : c.toLower.toLower = c.toLower := by
  unfold Char.toLower
  split_ifs with h h'
  · -- a lowered capital is no capital
    exfalso
    simp only [ge_iff_le, UInt32.le_iff_toNat_le, UInt32.toNat_add, UInt32.toNat_sub,
      Char.reduceVal, UInt32.reduceToNat] at h h'
    omega
  · rfl
  · rfl

theorem toList_toLower (s : String) : s.toLower.toList = s.toList.map Char.toLower := by
  show (s.map Char.toLower).toList = _
  exact String.toList_map

theorem toLower_toLower (s : String) : s.toLower.toLower = s.toLower := by
  apply String.ext
  simp only [toList_toLower, List.map_map]
  apply List.map_congr_left
  intro c _
  exact char_toLower_toLower c

theorem eq_iff_bytes (a b : String) :
    a.toByteArray.data.toList = b.toByteArray.data.toList ↔ a = b := by
  rw [Array.toList_inj, ← ByteArray.ext_iff, String.toByteArray_inj]

/-- Strings compared byte by byte. The standard instance casts along the equality
it has found, which does not evaluate when both strings are computed. -/
instance (priority := high) decidableEqString : DecidableEq String :=
  fun a b => decidable_of_iff _ (eq_iff_bytes a b)

/-- Equal once lowered. -/
def SameUpToCase (a b : String) : Prop := a.toLower = b.toLower

namespace SameUpToCase

variable {a b c : String}

instance : Decidable (SameUpToCase a b) := inferInstanceAs (Decidable (a.toLower = b.toLower))

@[refl] theorem refl (a : String) : SameUpToCase a a := rfl

@[symm] theorem symm (h : SameUpToCase a b) : SameUpToCase b a := Eq.symm h

@[trans] theorem trans (h : SameUpToCase a b) (h' : SameUpToCase b c) : SameUpToCase a c :=
  Eq.trans h h'

theorem toLower_left (a : String) : SameUpToCase a.toLower a := toLower_toLower a

end SameUpToCase

end FinP2PAdapter
