import FinP2PAdapter.Library.CaseFold
import FinP2PAdapter.Library.Redaction
import Mathlib.Algebra.GroupWithZero.Nat
import Mathlib.Data.List.Sort

/-! The log filter. The values of the environment's secret variables, and their forms inside a
JSON string, are cut out of each serialized line, the longest first. -/

namespace FinP2PAdapter.Logging

open Redaction

def exactSecretKeys : List String := ["NETWORK_AUTH"]

def secretKeySuffixes : List String :=
  ["_PRIVATE_KEY", "_PRIVATE_KEY_BASE64", "_AUTH_TOKEN", "_API_KEY", "_CONNECTION_STRING", "_SECRET",
    "_PASSWORD"]

def redacted : String := "[redacted]"

def isSecretKey (key : String) : Bool :=
  exactSecretKeys.contains key || secretKeySuffixes.any fun suffix => suffix.toList.isSuffixOf key.toList

/-- A character as `JSON.stringify` writes it. -/
def jsonEscapedChar (c : Char) : List Char :=
  match c.toNat with
  | 0x08 => ['\\', 'b']
  | 0x09 => ['\\', 't']
  | 0x0A => ['\\', 'n']
  | 0x0C => ['\\', 'f']
  | 0x0D => ['\\', 'r']
  | 0x22 => ['\\', '\x22']
  | 0x5C => ['\\', '\\']
  | code =>
    if code < 0x20 then ['\\', 'u', '0', '0', Nat.digitChar (code / 16), Nat.digitChar (code % 16)]
    else [c]

/-- `JSON.stringify` without the quotes. -/
def jsonEscaped (value : List Char) : List Char := value.flatMap jsonEscapedChar

/-- `values.add` of a set that keeps its order. -/
def addValue (values : List (List Char)) (value : List Char) : List (List Char) :=
  if value ∈ values then values else values ++ [value]

/-- What an entry of the environment adds. -/
def collectEntry (values : List (List Char)) (entry : String × String) : List (List Char) :=
  if entry.2 = "" ∨ isSecretKey entry.1 = false then values
  else
    let value := entry.2.toList
    let escaped := jsonEscaped value
    if escaped ≠ value then addValue (addValue values value) escaped else addValue values value

/-- `length`, in the code units of the language's strings. -/
def utf16Length (s : List Char) : ℕ := (s.map fun c => if c.toNat < 0x10000 then 1 else 2).sum

def collectSecrets (env : List (String × String)) : List (List Char) :=
  (env.foldl collectEntry []).mergeSort fun a b => decide (utf16Length b ≤ utf16Length a)

/-- The serialized line after the filter; a message that is no string is left alone. The secrets
are those of the environment the process was started with. -/
def redactSecrets (env : List (String × String)) (serialized : Option String) : Option String :=
  let secrets := collectSecrets env
  if secrets.length = 0 then serialized
  else serialized.map fun out => String.ofList (redact redacted.toList secrets out.toList)

/-! ### The secrets of an environment -/

/-- The raw or the escaped value of a secret variable that is set. -/
def IsSecret (env : List (String × String)) (s : List Char) : Prop :=
  ∃ key value, (key, value) ∈ env ∧ isSecretKey key = true ∧ value ≠ "" ∧
    (s = value.toList ∨ s = jsonEscaped value.toList)

/-- No secret value has a bracket or is a part of the word in the mark. -/
def Plain (env : List (String × String)) : Prop :=
  ∀ key value, (key, value) ∈ env → isSecretKey key = true → value ≠ "" →
    '[' ∉ value.toList ∧ ']' ∉ value.toList ∧ ¬ value.toList <:+: "redacted".toList

theorem mem_addValue {values : List (List Char)} {value s : List Char} :
    s ∈ addValue values value ↔ s ∈ values ∨ s = value := by
  unfold addValue
  split_ifs with hmem
  · exact ⟨.inl, fun h => h.elim id fun he => he ▸ hmem⟩
  · simp

theorem mem_collectEntry {values : List (List Char)} {entry : String × String} {s : List Char} :
    s ∈ collectEntry values entry ↔ s ∈ values ∨ isSecretKey entry.1 = true ∧ entry.2 ≠ "" ∧
      (s = entry.2.toList ∨ s = jsonEscaped entry.2.toList) := by
  unfold collectEntry
  split_ifs with hskip
  · have hnot : ¬ (isSecretKey entry.1 = true ∧ entry.2 ≠ "") := by
      rintro ⟨hkey, hvalue⟩
      rcases hskip with h | h
      · exact hvalue h
      · rw [hkey] at h
        cases h
    tauto
  · rw [not_or, Bool.not_eq_false] at hskip
    dsimp only
    by_cases hescaped : jsonEscaped entry.2.toList = entry.2.toList
    · rw [if_neg (not_not.mpr hescaped), mem_addValue, hescaped]
      tauto
    · rw [if_pos hescaped, mem_addValue, mem_addValue]
      tauto

theorem mem_collectSecrets {env : List (String × String)} {s : List Char} :
    s ∈ collectSecrets env ↔ IsSecret env s := by
  have hfold : ∀ values, s ∈ env.foldl collectEntry values ↔ s ∈ values ∨ IsSecret env s := by
    unfold IsSecret
    induction env with
    | nil => simp
    | cons entry env ih =>
      intro values
      obtain ⟨key, value⟩ := entry
      rw [List.foldl_cons, ih, mem_collectEntry]
      simp only [List.mem_cons, Prod.mk.injEq]
      constructor
      · rintro ((hmem | ⟨hkey, hvalue, hs⟩) | ⟨k, v, hentry, hrest⟩)
        · exact .inl hmem
        · exact .inr ⟨key, value, .inl ⟨rfl, rfl⟩, hkey, hvalue, hs⟩
        · exact .inr ⟨k, v, .inr hentry, hrest⟩
      · rintro (hmem | ⟨k, v, ⟨rfl, rfl⟩ | hentry, hrest⟩)
        · exact .inl (.inl hmem)
        · exact .inl (.inr hrest)
        · exact .inr ⟨k, v, hentry, hrest⟩
  rw [collectSecrets, List.mem_mergeSort, hfold]
  simp

theorem pairwise_collectSecrets (env : List (String × String)) :
    (collectSecrets env).Pairwise fun a b => utf16Length b ≤ utf16Length a := by
  have hsorted := @List.pairwise_mergeSort _ (fun a b => decide (utf16Length b ≤ utf16Length a))
    (fun a b c hab hbc => by
      simp only [decide_eq_true_eq] at hab hbc ⊢
      exact hbc.trans hab)
    (fun a b => by
      simp only [Bool.or_eq_true, decide_eq_true_eq]
      exact le_total _ _) (env.foldl collectEntry [])
  exact hsorted.imp fun h => of_decide_eq_true h

/-! ### Escaped characters -/

theorem jsonEscapedChar_cases (c : Char) :
    jsonEscapedChar c = [c] ∨ '\\' ∈ jsonEscapedChar c ∧ '[' ∉ jsonEscapedChar c ∧ ']' ∉ jsonEscapedChar c := by
  have hdigits : ∀ code < 0x20, '[' ∉ [Nat.digitChar (code / 16), Nat.digitChar (code % 16)] ∧
      ']' ∉ [Nat.digitChar (code / 16), Nat.digitChar (code % 16)] := by decide
  unfold jsonEscapedChar
  split
  all_goals try exact .inr (by decide)
  split_ifs with hlt
  · obtain ⟨hleft, hright⟩ := hdigits _ hlt
    right
    simp_all
  · exact .inl rfl

theorem jsonEscapedChar_ne_nil (c : Char) : jsonEscapedChar c ≠ [] := by
  rcases jsonEscapedChar_cases c with h | ⟨hmem, -⟩
  · rw [h]
    simp
  · intro hnil
    rw [hnil] at hmem
    cases hmem

/-- An escaped value has the brackets of the value, and a backslash if it is another text. -/
theorem jsonEscaped_plain {value : List Char} (hleft : '[' ∉ value) (hright : ']' ∉ value) :
    '[' ∉ jsonEscaped value ∧ ']' ∉ jsonEscaped value ∧
      (jsonEscaped value = value ∨ '\\' ∈ jsonEscaped value) := by
  induction value with
  | nil => simp [jsonEscaped]
  | cons c value ih =>
    obtain ⟨hl, hr, hsame⟩ := ih (fun h => hleft (List.mem_cons_of_mem _ h))
      fun h => hright (List.mem_cons_of_mem _ h)
    have hcons : jsonEscaped (c :: value) = jsonEscapedChar c ++ jsonEscaped value := rfl
    rw [hcons]
    rcases jsonEscapedChar_cases c with hc | ⟨hmem, hcl, hcr⟩
    · rw [hc]
      simp only [List.mem_cons, not_or] at hleft hright
      refine ⟨by simp [hleft.1, hl], by simp [hright.1, hr], ?_⟩
      exact hsame.imp (fun h => by rw [h]; rfl) fun h => List.mem_append_right _ h
    · exact ⟨by simp [hcl, hl], by simp [hcr, hr], .inr (List.mem_append_left _ hmem)⟩

theorem foreign_of_isSecret {env : List (String × String)} (h : Plain env) {s : List Char}
    (hs : IsSecret env s) : Foreign '[' ']' "redacted".toList s := by
  obtain ⟨key, value, hentry, hkey, hvalue, hs⟩ := hs
  obtain ⟨hleft, hright, hword⟩ := h key value hentry hkey hvalue
  have hne : value.toList ≠ [] := by simpa using hvalue
  rcases hs with rfl | rfl
  · exact ⟨hne, hleft, hright, hword⟩
  · obtain ⟨hl, hr, hsame⟩ := jsonEscaped_plain hleft hright
    refine ⟨?_, hl, hr, fun hinfix => ?_⟩
    · obtain ⟨c, cs, hcons⟩ := List.exists_cons_of_ne_nil hne
      rw [hcons, jsonEscaped, List.flatMap_cons]
      intro hnil
      exact jsonEscapedChar_ne_nil c (List.append_eq_nil_iff.mp hnil).1
    · rcases hsame with hsame | hmem
      · rw [hsame] at hinfix
        exact hword hinfix
      · have hno : '\\' ∉ "redacted".toList := by decide
        exact hno ( hinfix.subset hmem)

/-! ### Lines -/

theorem utf16Length_append (s s' : List Char) :
    utf16Length (s ++ s') = utf16Length s + utf16Length s' := by
  simp [utf16Length]

theorem eq_nil_of_utf16Length {s : List Char} (h : utf16Length s = 0) : s = [] := by
  cases s with
  | nil => rfl
  | cons c s =>
    unfold utf16Length at h
    rw [List.map_cons, List.sum_cons] at h
    split_ifs at h <;> omega

/-- A part of a text that is not shorter is the text. -/
theorem eq_of_infix_of_utf16Length {s s' : List Char} (h : s <:+: s')
    (hlength : utf16Length s' ≤ utf16Length s) : s = s' := by
  obtain ⟨before, after, rfl⟩ := h
  rw [utf16Length_append, utf16Length_append] at hlength
  rw [eq_nil_of_utf16Length (s := before) (by omega), eq_nil_of_utf16Length (s := after) (by omega)]
  simp

theorem redactSecrets_eq (env : List (String × String)) (line : String) :
    redactSecrets env (some line) =
      some (String.ofList (redact redacted.toList (collectSecrets env) line.toList)) := by
  unfold redactSecrets
  dsimp only
  split_ifs with hnone
  · rw [List.length_eq_zero_iff.mp hnone]
    simp [redact]
  · rfl

/-- For every environment with plain values and every line: no raw or escaped secret is in what is
written. It is the line with secrets replaced by the mark, all else kept and in order, and a secret
that no occurrence of a secret overlaps partially is replaced whole. -/
theorem redactSecrets_removes (env : List (String × String)) (h : Plain env) (line : String) :
    ∃ out, redactSecrets env (some line) = some out ∧
      (∀ s, IsSecret env s → ¬ s <:+: out.toList) ∧
      ∃ t : List (Token Char), original t = line.toList ∧ rendered redacted.toList t = out.toList ∧
        (∀ s, .inr s ∈ t → IsSecret env s) ∧
        ∀ s i, IsSecret env s → OccursAt s line.toList i →
          (∀ s' j, IsSecret env s' → OccursAt s' line.toList j →
            ¬ PartiallyOverlap i s.length j s'.length) → Removed t i s.length := by
  have hmark : redacted.toList = '[' :: ("redacted".toList ++ [']']) := by decide
  have hforeign : ∀ s ∈ collectSecrets env, Foreign '[' ']' "redacted".toList s :=
    fun s hs => foreign_of_isSecret h (mem_collectSecrets.mp hs)
  have hne : ∀ s ∈ collectSecrets env, s ≠ [] := fun s hs => (hforeign s hs).nonempty
  have hrendered : rendered redacted.toList (cutAll (collectSecrets env) (letters line.toList)) =
      redact redacted.toList (collectSecrets env) line.toList := by
    rw [hmark, rendered_cutAll hforeign, rendered_letters]
  have horiginal : original (cutAll (collectSecrets env) (letters line.toList)) = line.toList := by
    rw [original_cutAll hne, original_letters]
  refine ⟨_, redactSecrets_eq env line, fun s hs hinfix => ?_,
    cutAll (collectSecrets env) (letters line.toList), horiginal, by rw [hrendered, String.toList_ofList],
    fun s hs => mem_collectSecrets.mp (mem_secrets_of_cutAll hne line.toList hs),
    fun s i hs hoccurs hpart => ?_⟩
  · rw [String.toList_ofList, ← hrendered, hmark] at hinfix
    have hs := mem_collectSecrets.mpr hs
    exact not_infix_cutAll hne hs _ (letters_infix_of_rendered (hforeign s hs) hinfix)
  · have hnocut : ∀ c, Sum.inr c ∉ letters line.toList := by
      intro c hc
      obtain ⟨a, -, ha⟩ := List.mem_map.mp hc
      cases ha
    refine removed_cutAll (fun _ _ => eq_of_infix_of_utf16Length) hne (pairwise_collectSecrets env)
      (fun c hc => absurd hc (hnocut c)) (mem_collectSecrets.mpr hs) (by rwa [original_letters]) ?_
    intro c hc j hj
    rw [original_letters] at hj
    exact hpart c j (mem_collectSecrets.mp (hc.resolve_right (hnocut c))) hj

/-! ### A secret that overlaps itself -/

def doubledEnv : List (String × String) := [("NODE_API_KEY", "aa")]

theorem doubled_isSecret {s : List Char} (h : IsSecret doubledEnv s) : s = ['a', 'a'] := by
  obtain ⟨key, value, hentry, -, -, hs⟩ := h
  cases List.mem_singleton.mp hentry
  rcases hs with rfl | rfl <;> decide

theorem doubled_plain : Plain doubledEnv := by
  intro key value hentry _ _
  cases List.mem_singleton.mp hentry
  decide

theorem doubled_redacted : redactSecrets doubledEnv (some "aaa") = some "[redacted]a" := by
  have hvalues : doubledEnv.foldl collectEntry [] = [['a', 'a']] := by decide +kernel
  rw [redactSecrets_eq, collectSecrets, hvalues, List.mergeSort_singleton]
  decide +kernel

/-- Of two occurrences of one secret the later is not replaced whole, although no occurrence of
another secret overlaps it. -/
theorem doubled_leaves_a_letter : ¬ ∀ (env : List (String × String)) (line : String), Plain env →
    ∃ out, redactSecrets env (some line) = some out ∧
      ∃ t : List (Token Char), original t = line.toList ∧ rendered redacted.toList t = out.toList ∧
        (∀ s, .inr s ∈ t → IsSecret env s) ∧
        ∀ s i, IsSecret env s → OccursAt s line.toList i →
          (∀ s' j, IsSecret env s' → s' ≠ s → OccursAt s' line.toList j →
            ¬ PartiallyOverlap i s.length j s'.length) → Removed t i s.length := by
  intro h
  obtain ⟨out, hout, t, horiginal, hrendered, hsecrets, hremoved⟩ := h doubledEnv "aaa" doubled_plain
  rw [doubled_redacted] at hout
  cases hout
  have hsecret : IsSecret doubledEnv ['a', 'a'] :=
    ⟨"NODE_API_KEY", "aa", List.mem_cons_self, by decide, by decide, .inl rfl⟩
  obtain ⟨before, c, after, rfl, hstart, hend⟩ := hremoved ['a', 'a'] 1 hsecret (by decide)
    fun s' _ hs' hne => absurd (doubled_isSecret hs') hne
  have hc : c = ['a', 'a'] := doubled_isSecret (hsecrets c (List.mem_append_right _ List.mem_cons_self))
  subst hc
  simp only [List.length_cons, List.length_nil] at hend
  cases before with
  | nil => simp [original] at hend
  | cons x before =>
    cases x with
    | inl a =>
      -- the line begins with `a`, what is written with the mark
      have hline : a = 'a' := (List.cons.inj horiginal).1
      have hmark : a = '[' := (List.cons.inj hrendered).1
      rw [hline] at hmark
      exact absurd hmark (by decide)
    | inr d =>
      have hd : d = ['a', 'a'] := doubled_isSecret (hsecrets d List.mem_cons_self)
      subst hd
      simp [original] at hstart

/-- A password within a longer one, and one with a quote, which the line has escaped. -/
theorem nested_secrets_removed : ∃ out,
    redactSecrets [("DB_PASSWORD", "pass"), ("DB_CONNECTION_STRING", "pg:pass@db"), ("X_SECRET", "a\"b")]
      (some "url pg:pass@db of a\\\"b, pass") = some out ∧
    ¬ "pass".toList <:+: out.toList := by
  have hplain : Plain [("DB_PASSWORD", "pass"), ("DB_CONNECTION_STRING", "pg:pass@db"),
      ("X_SECRET", "a\"b")] := by
    intro key value hentry _ _
    simp only [List.mem_cons, Prod.mk.injEq, List.not_mem_nil, or_false] at hentry
    rcases hentry with ⟨-, rfl⟩ | ⟨-, rfl⟩ | ⟨-, rfl⟩ <;> decide
  obtain ⟨out, hout, hgone, -⟩ := redactSecrets_removes _ hplain
    "url pg:pass@db of a\\\"b, pass"
  exact ⟨out, hout, hgone _ ⟨"DB_PASSWORD", "pass", List.mem_cons_self, by decide, by decide, .inl rfl⟩⟩

end FinP2PAdapter.Logging
