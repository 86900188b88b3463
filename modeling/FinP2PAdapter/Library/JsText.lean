import FinP2PAdapter.Library.CaseFold
import Mathlib.Data.List.DropRight

/-! The text operations of the language that Lean's own differ from. -/

namespace FinP2PAdapter.JsText

/-- White space and line ends, all of which `trim` takes off. -/
def isWhiteSpace (c : Char) : Bool :=
  c.toNat ∈ [0x09, 0x0A, 0x0B, 0x0C, 0x0D, 0x20, 0xA0, 0x1680, 0x2028, 0x2029, 0x202F, 0x205F, 0x3000,
    0xFEFF] ∨ 0x2000 ≤ c.toNat ∧ c.toNat ≤ 0x200A

def trim (s : String) : String :=
  String.ofList ((s.toList.dropWhile isWhiteSpace).rdropWhile isWhiteSpace)

/-- `Number` of a text that matches `/^\d+$/`. -/
def digitsValue (s : String) : Option ℕ :=
  if s ≠ "" ∧ s.toList.all Char.isDigit then
    some (s.toList.foldl (fun n d => 10 * n + (d.toNat - '0'.toNat)) 0)
  else none

theorem digitsValue_eq_some {s : String} {n : ℕ} (h : digitsValue s = some n) :
    s.toList ≠ [] ∧ (∀ c ∈ s.toList, c.isDigit = true) ∧ n = Nat.ofDigitChars 10 s.toList 0 := by
  unfold digitsValue at h
  split_ifs at h with hdigits
  cases h
  refine ⟨fun hnil => hdigits.1 (String.toList_eq_nil_iff.mp hnil), List.all_eq_true.mp hdigits.2, rfl⟩

/-- The digits of a number are its value. -/
theorem digitsValue_toString (n : ℕ) : digitsValue (toString n) = some n := by
  have hlist : (toString n).toList = Nat.toDigits 10 n := Nat.toList_repr
  have hne : toString n ≠ "" := by
    intro h
    rw [h] at hlist
    exact Nat.toDigits_ne_nil hlist.symm
  have hdigits : (toString n).toList.all Char.isDigit = true := by
    rw [hlist]
    exact List.all_eq_true.mpr fun c hc => Nat.isDigit_of_mem_toDigits (by omega) (by omega) hc
  unfold digitsValue
  rw [if_pos ⟨hne, hdigits⟩, hlist]
  exact congrArg some Nat.ofDigitChars_ten_toDigits

/-- `split` at a separator of one letter. -/
def split (s : String) (sep : Char) : List String := (s.toList.splitOn sep).map String.ofList

theorem trim_eq_empty_iff {s : String} : trim s = "" ↔ ∀ c ∈ s.toList, isWhiteSpace c = true := by
  rw [← String.toList_inj]
  simp only [trim, String.toList_ofList, String.toList_empty, List.rdropWhile_eq_nil_iff]
  constructor
  · intro h
    -- what is left at the front would begin with a letter that is no white space
    have hfront : s.toList.dropWhile isWhiteSpace = [] := by
      by_contra hne
      have hhead := List.head_dropWhile_not isWhiteSpace hne
      rw [h _ (List.head_mem hne)] at hhead
      cases hhead
    exact List.dropWhile_eq_nil_iff.mp hfront
  · intro h c hc
    exact h c ((List.dropWhile_sublist _).subset hc)

/-- Where there is no white space, nothing is taken off. -/
theorem trim_eq_self {s : String} (h : ∀ c ∈ s.toList, isWhiteSpace c = false) : trim s = s := by
  have hfront : s.toList.dropWhile isWhiteSpace = s.toList := by
    cases hs : s.toList with
    | nil => rfl
    | cons c cs =>
      have hc := h c (hs ▸ List.mem_cons_self)
      rw [List.dropWhile_cons_of_neg (by simp [hc])]
  have hback : s.toList.rdropWhile isWhiteSpace = s.toList := by
    rw [List.rdropWhile_eq_self_iff]
    intro hne
    rw [h _ (List.getLast_mem hne)]
    exact Bool.false_ne_true
  rw [trim, hfront, hback, String.ofList_toList]

/-- What begins with something else than white space keeps its beginning. -/
theorem toList_trim_cons {s : String} {c : Char} {cs : List Char} (h : s.toList = c :: cs)
    (hc : isWhiteSpace c = false) : ∃ rest, (trim s).toList = c :: rest := by
  have hfront : (c :: cs).dropWhile isWhiteSpace = c :: cs := List.dropWhile_cons_of_neg (by simp [hc])
  have hprefix := List.rdropWhile_prefix isWhiteSpace (c :: cs)
  rw [trim, String.toList_ofList, h, hfront]
  cases hback : (c :: cs).rdropWhile isWhiteSpace with
  | nil =>
    have hall := List.rdropWhile_eq_nil_iff.mp hback c List.mem_cons_self
    rw [hc] at hall
    cases hall
  | cons d rest =>
    rw [hback] at hprefix
    exact ⟨rest, by rw [(List.cons_prefix_cons.mp hprefix).1]⟩

theorem flatten_splitOn (sep : Char) (cs : List Char) : (cs.splitOn sep).flatten = cs.filter (· ≠ sep) := by
  induction cs with
  | nil => rfl
  | cons c cs ih =>
    rw [List.splitOn_cons_eq_if_modifyHead]
    by_cases hc : c = sep
    · rw [if_pos (by simpa using hc), List.flatten_cons, List.nil_append, ih,
        List.filter_cons_of_neg (by simpa using hc)]
    · rw [if_neg (by simpa using hc), List.filter_cons_of_pos (by simpa using hc), ← ih]
      obtain ⟨piece, pieces, hpieces⟩ := List.exists_cons_of_ne_nil (List.splitOn_ne_nil sep cs)
      rw [hpieces, List.modifyHead_cons, List.flatten_cons, List.flatten_cons, List.cons_append]

/-- The letters of the pieces are those of the text, less the separators. -/
theorem mem_split {s : String} {sep c : Char} :
    (∃ piece ∈ split s sep, c ∈ piece.toList) ↔ c ∈ s.toList ∧ c ≠ sep := by
  have hflat := flatten_splitOn sep s.toList
  constructor
  · rintro ⟨piece, hpiece, hc⟩
    obtain ⟨letters, hletters, rfl⟩ := List.mem_map.mp hpiece
    have hmem : c ∈ (s.toList.splitOn sep).flatten := List.mem_flatten.mpr ⟨letters, hletters, by simpa using hc⟩
    rw [hflat] at hmem
    simpa using List.mem_filter.mp hmem
  · rintro ⟨hc, hne⟩
    have hmem : c ∈ (s.toList.splitOn sep).flatten := by
      rw [hflat]
      exact List.mem_filter.mpr ⟨hc, by simpa using hne⟩
    obtain ⟨letters, hletters, hc⟩ := List.mem_flatten.mp hmem
    exact ⟨String.ofList letters, List.mem_map_of_mem hletters, by simpa using hc⟩

end FinP2PAdapter.JsText
