import FinP2PAdapter.Library.CaseFold

/-! Hexadecimal account addresses. -/

namespace FinP2PAdapter

def isHexDigit (c : Char) : Bool :=
  ('0' ≤ c && c ≤ '9') || ('a' ≤ c && c ≤ 'f') || ('A' ≤ c && c ≤ 'F')

/-- `ETH_ADDRESS_FORMAT`: `/^0x[0-9a-fA-F]{40}$/`. -/
def isEthAddress (s : String) : Bool :=
  match s.toList with
  | '0' :: 'x' :: digits => digits.length == 40 && digits.all isHexDigit
  | _ => false

/-- A lowered address is `0x` and forty digits. -/
theorem toList_toLower_of_isEthAddress {s : String} (h : isEthAddress s = true) :
    s.toLower.toList = '0' :: 'x' :: s.toLower.toList.drop 2 ∧
      (s.toLower.toList.drop 2).length = 40 := by
  rw [toList_toLower]
  unfold isEthAddress at h
  split at h
  · rename_i digits he
    simp only [Bool.and_eq_true, beq_iff_eq] at h
    rw [he]
    simp [h.1]
  · cases h

end FinP2PAdapter
