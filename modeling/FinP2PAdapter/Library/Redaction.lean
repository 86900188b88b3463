import Mathlib.Data.List.Infix

/-! Cutting words out of a text. Each word in turn is replaced by a mark wherever it is found from
the left, and each replacement changes the text that the next one reads. The text is therefore also
followed as tokens, letters that are still there and words that were cut: no word is found across
a mark that is foreign to it, so both readings agree, and the tokens keep what the original was. -/

namespace FinP2PAdapter.Redaction

variable {α : Type*} [DecidableEq α]

/-! ### Replacing one pattern -/

/-- `replaceAll` from the left, where `skip` letters of the last match remain. -/
def replaceFrom (pattern mark : List α) : ℕ → List α → List α
  | _, [] => []
  | skip + 1, _ :: xs => replaceFrom pattern mark skip xs
  | 0, x :: xs =>
    if pattern.isPrefixOf (x :: xs) then mark ++ replaceFrom pattern mark (pattern.length - 1) xs
    else x :: replaceFrom pattern mark 0 xs

def replaceAll (pattern mark xs : List α) : List α := replaceFrom pattern mark 0 xs

variable {pattern mark : List α}

theorem replaceFrom_eq_drop (skip : ℕ) (xs : List α) :
    replaceFrom pattern mark skip xs = replaceAll pattern mark (xs.drop skip) := by
  induction xs generalizing skip with
  | nil => cases skip <;> rfl
  | cons x xs ih =>
    cases skip with
    | zero => rfl
    | succ skip => exact ih skip

@[simp] theorem replaceAll_nil : replaceAll pattern mark [] = [] := rfl

theorem replaceAll_match (hpattern : pattern ≠ []) (xs : List α) :
    replaceAll pattern mark (pattern ++ xs) = mark ++ replaceAll pattern mark xs := by
  obtain ⟨p, ps, rfl⟩ := List.exists_cons_of_ne_nil hpattern
  have hprefix : (p :: ps).isPrefixOf (p :: (ps ++ xs)) = true := by
    rw [List.isPrefixOf_iff_prefix]
    exact List.prefix_append (p :: ps) xs
  rw [List.cons_append, replaceAll, replaceFrom, if_pos hprefix, replaceFrom_eq_drop]
  simp

theorem replaceAll_cons {x : α} {xs : List α} (h : ¬ pattern <+: x :: xs) :
    replaceAll pattern mark (x :: xs) = x :: replaceAll pattern mark xs := by
  rw [← List.isPrefixOf_iff_prefix] at h
  rw [replaceAll, replaceFrom, if_neg h]
  rfl

/-- The recursion of `replaceAll`: past a match, or past a letter where none begins. -/
theorem replaceAll_induction {P : List α → Prop} (hpattern : pattern ≠ []) (nil : P [])
    (hit : ∀ xs, P xs → P (pattern ++ xs)) (miss : ∀ x xs, ¬ pattern <+: x :: xs → P xs → P (x :: xs)) :
    ∀ xs, P xs := by
  intro xs
  induction hlength : xs.length using Nat.strong_induction_on generalizing xs with
  | _ n ih =>
    subst hlength
    cases xs with
    | nil => exact nil
    | cons x xs =>
      by_cases hprefix : pattern <+: x :: xs
      · obtain ⟨rest, hrest⟩ := hprefix
        have hpos := List.length_pos_iff.mpr hpattern
        have hlength : pattern.length + rest.length = (x :: xs).length := by
          rw [← hrest, List.length_append]
        rw [← hrest]
        exact hit rest (ih rest.length (by omega) rest rfl)
      · exact miss x xs hprefix (ih xs.length (by simp) xs rfl)

/-! ### Separators -/

omit [DecidableEq α] in
theorem prefix_of_separated {s xs ys : List α} {sep : α} (hsep : sep ∉ s) (h : s <+: xs ++ sep :: ys) :
    s <+: xs := by
  induction xs generalizing s with
  | nil =>
    rcases List.prefix_cons_iff.mp h with rfl | ⟨s, rfl, -⟩
    · exact List.nil_prefix
    · exact absurd List.mem_cons_self hsep
  | cons x xs ih =>
    rcases List.prefix_cons_iff.mp h with rfl | ⟨s, rfl, hs⟩
    · exact List.nil_prefix
    · exact List.prefix_cons_iff.mpr (.inr ⟨s, rfl, ih (fun hmem => hsep (List.mem_cons_of_mem _ hmem)) hs⟩)

omit [DecidableEq α] in
theorem eq_nil_of_prefix_separated {s ys : List α} {sep : α} (hsep : sep ∉ s) (h : s <+: sep :: ys) : s = [] :=
  List.prefix_nil.mp (prefix_of_separated hsep (show s <+: [] ++ sep :: ys from h))

omit [DecidableEq α] in
/-- A word is found on one side of a letter that it lacks. -/
theorem infix_of_separated {s xs ys : List α} {sep : α} (hs : s ≠ []) (hsep : sep ∉ s)
    (h : s <:+: xs ++ sep :: ys) : s <:+: xs ∨ s <:+: ys := by
  induction xs with
  | nil =>
    rcases List.infix_cons_iff.mp h with hprefix | hinfix
    · exact absurd (eq_nil_of_prefix_separated hsep hprefix) hs
    · exact .inr hinfix
  | cons x xs ih =>
    rcases List.infix_cons_iff.mp h with hprefix | hinfix
    · exact .inl (prefix_of_separated hsep hprefix).isInfix
    · rcases ih hinfix with hleft | hright
      · exact .inl (List.infix_cons_iff.mpr (.inr hleft))
      · exact .inr hright

/-- A word that a mark `left ++ word ++ right` has no part in. -/
structure Foreign (left right : α) (word s : List α) : Prop where
  nonempty : s ≠ []
  left : left ∉ s
  right : right ∉ s
  word : ¬ s <:+: word

/-! ### Tokens -/

/-- A letter of the text, or a word that was cut out of it. -/
abbrev Token (α : Type*) := α ⊕ List α

def letters (s : List α) : List (Token α) := s.map Sum.inl

def original (t : List (Token α)) : List α := t.flatMap (Sum.elim (fun a => [a]) id)

def rendered (mark : List α) (t : List (Token α)) : List α :=
  t.flatMap (Sum.elim (fun a => [a]) fun _ => mark)

def cut (s : List α) (t : List (Token α)) : List (Token α) := replaceAll (letters s) [.inr s] t

section Tokens

variable {s u : List α} {t : List (Token α)}

omit [DecidableEq α] in
@[simp] theorem original_append (t t' : List (Token α)) : original (t ++ t') = original t ++ original t' :=
  List.flatMap_append

omit [DecidableEq α] in
@[simp] theorem original_letters (s : List α) : original (letters s) = s := by
  induction s with
  | nil => rfl
  | cons a s ih => exact congrArg (a :: ·) ih

omit [DecidableEq α] in
@[simp] theorem rendered_append (mark : List α) (t t' : List (Token α)) :
    rendered mark (t ++ t') = rendered mark t ++ rendered mark t' := List.flatMap_append

omit [DecidableEq α] in
@[simp] theorem rendered_letters (mark s : List α) : rendered mark (letters s) = s := by
  induction s with
  | nil => rfl
  | cons a s ih => exact congrArg (a :: ·) ih

omit [DecidableEq α] in
theorem letters_ne_nil (hs : s ≠ []) : letters s ≠ [] := by
  rwa [letters, ne_eq, List.map_eq_nil_iff]

omit [DecidableEq α] in
theorem letters_prefix_cons {x : Token α} (h : letters u <+: x :: t) :
    u = [] ∨ ∃ a u', u = a :: u' ∧ x = .inl a ∧ letters u' <+: t := by
  cases u with
  | nil => exact .inl rfl
  | cons a u =>
    rcases List.prefix_cons_iff.mp h with hnil | ⟨t', hcons, ht'⟩
    · cases hnil
    · obtain ⟨ha, rfl⟩ := List.cons.inj hcons
      exact .inr ⟨a, u, rfl, ha.symm, ht'⟩

theorem cut_match (hs : s ≠ []) (t : List (Token α)) : cut s (letters s ++ t) = .inr s :: cut s t :=
  replaceAll_match (letters_ne_nil hs) t

theorem cut_miss {x : Token α} (h : ¬ letters s <+: x :: t) : cut s (x :: t) = x :: cut s t :=
  replaceAll_cons h

theorem original_cut (hs : s ≠ []) (t : List (Token α)) : original (cut s t) = original t := by
  induction t using replaceAll_induction (letters_ne_nil hs) with
  | nil => rfl
  | hit t ih =>
    rw [cut_match hs, original_append, original_letters, ← ih]
    rfl
  | miss x t hmiss ih =>
    rw [cut_miss hmiss]
    exact congrArg (Sum.elim (fun a => [a]) id x ++ ·) ih

theorem mem_cut (hs : s ≠ []) {c : List α} (h : .inr c ∈ cut s t) : c = s ∨ .inr c ∈ t := by
  induction t using replaceAll_induction (letters_ne_nil hs) with
  | nil => cases h
  | hit t ih =>
    rw [cut_match hs] at h
    rcases List.mem_cons.mp h with hcs | hmem
    · exact .inl (Sum.inr.inj hcs)
    · exact (ih hmem).imp_right (List.mem_append_right _)
  | miss x t hmiss ih =>
    rw [cut_miss hmiss] at h
    rcases List.mem_cons.mp h with rfl | hmem
    · exact .inr List.mem_cons_self
    · exact (ih hmem).imp_right (List.mem_cons_of_mem _)

/-- Cutting joins no letters that were apart. -/
theorem letters_prefix_of_cut (hs : s ≠ []) (h : letters u <+: cut s t) : letters u <+: t := by
  induction t using replaceAll_induction (letters_ne_nil hs) generalizing u with
  | nil => exact h
  | hit t ih =>
    rw [cut_match hs] at h
    rcases letters_prefix_cons h with rfl | ⟨a, u, -, hx, -⟩
    · exact List.nil_prefix
    · cases hx
  | miss x t hmiss ih =>
    rw [cut_miss hmiss] at h
    rcases letters_prefix_cons h with rfl | ⟨a, u, rfl, rfl, hu⟩
    · exact List.nil_prefix
    · exact List.prefix_cons_iff.mpr (.inr ⟨letters u, rfl, ih hu⟩)

theorem letters_infix_of_cut (hs : s ≠ []) (h : letters u <:+: cut s t) : letters u <:+: t := by
  induction t using replaceAll_induction (letters_ne_nil hs) with
  | nil => exact h
  | hit t ih =>
    rw [cut_match hs] at h
    rcases List.infix_cons_iff.mp h with hprefix | hinfix
    · rcases letters_prefix_cons hprefix with rfl | ⟨a, u, -, hx, -⟩
      · exact List.nil_infix
      · cases hx
    · exact (ih hinfix).trans (List.suffix_append _ _).isInfix
  | miss x t hmiss ih =>
    rw [cut_miss hmiss] at h
    rcases List.infix_cons_iff.mp h with hprefix | hinfix
    · rw [← cut_miss hmiss] at hprefix
      exact (letters_prefix_of_cut hs hprefix).isInfix
    · exact List.infix_cons_iff.mpr (.inr (ih hinfix))

/-- Nothing of the word is left among the letters. -/
theorem not_infix_cut (hs : s ≠ []) (t : List (Token α)) : ¬ letters s <:+: cut s t := by
  induction t using replaceAll_induction (letters_ne_nil hs) with
  | nil =>
    intro h
    exact letters_ne_nil hs (List.infix_nil.mp h)
  | hit t ih =>
    intro h
    rw [cut_match hs] at h
    rcases List.infix_cons_iff.mp h with hprefix | hinfix
    · rcases letters_prefix_cons hprefix with hnil | ⟨a, u, -, hx, -⟩
      · exact hs hnil
      · cases hx
    · exact ih hinfix
  | miss x t hmiss ih =>
    intro h
    rw [cut_miss hmiss] at h
    rcases List.infix_cons_iff.mp h with hprefix | hinfix
    · rw [← cut_miss hmiss] at hprefix
      exact hmiss (letters_prefix_of_cut hs hprefix)
    · exact ih hinfix

/-- A word that was cut stays cut, in its place. -/
theorem cut_kept (hs : s ≠ []) {before after : List (Token α)} {c : List α}
    (h : t = before ++ .inr c :: after) : ∃ before' after', cut s t = before' ++ .inr c :: after' ∧
      original before' = original before := by
  induction t using replaceAll_induction (letters_ne_nil hs) generalizing before with
  | nil => exact absurd h (by simp)
  | hit t ih =>
    -- the match has letters only, so it ends before the cut
    rcases List.append_eq_append_iff.mp h with ⟨more, rfl, hmore⟩ | ⟨more, hletters, hmore⟩
    · obtain ⟨before', after', hcut, horiginal⟩ := ih hmore
      refine ⟨.inr s :: before', after', by rw [cut_match hs, hcut]; rfl, ?_⟩
      rw [original_append, original_letters, ← horiginal]
      rfl
    · cases more with
      | nil =>
        rw [List.append_nil] at hletters
        obtain ⟨before', after', hcut, horiginal⟩ := ih (show t = [] ++ .inr c :: after from hmore.symm)
        refine ⟨.inr s :: before', after', by rw [cut_match hs, hcut]; rfl, ?_⟩
        rw [← hletters, original_letters]
        exact congrArg (s ++ ·) horiginal |>.trans (List.append_nil s)
      | cons x more =>
        obtain ⟨rfl, -⟩ := List.cons.inj hmore
        have hmem : Sum.inr c ∈ letters s := by
          rw [hletters]
          exact List.mem_append_right _ List.mem_cons_self
        obtain ⟨a, -, ha⟩ := List.mem_map.mp hmem
        cases ha
  | miss x t hmiss ih =>
    rw [cut_miss hmiss]
    cases before with
    | nil =>
      obtain ⟨rfl, rfl⟩ := List.cons.inj h
      exact ⟨[], _, rfl, rfl⟩
    | cons b before =>
      obtain ⟨rfl, ht⟩ := List.cons.inj h
      obtain ⟨before', after', hcut, horiginal⟩ := ih ht
      refine ⟨x :: before', after', by rw [hcut]; rfl, ?_⟩
      exact congrArg (Sum.elim (fun a => [a]) id x ++ ·) horiginal

end Tokens

/-! ### The rendered text -/

section Rendered

variable {left right : α} {word s u : List α} {t : List (Token α)}

/-- No match begins within the mark. -/
theorem replaceAll_mark (hforeign : Foreign left right word s) (xs : List α) :
    replaceAll s mark (left :: (word ++ right :: xs)) =
      left :: (word ++ right :: replaceAll s mark xs) := by
  have hmiss : ∀ (sep : α) (ys : List α), sep ∉ s → ¬ s <+: sep :: ys := by
    intro sep ys hsep hprefix
    exact hforeign.nonempty (eq_nil_of_prefix_separated hsep hprefix)
  have hword : ∀ w, w <:+ word → replaceAll s mark (w ++ right :: xs) =
      w ++ right :: replaceAll s mark xs := by
    intro w hw
    induction w with
    | nil => exact replaceAll_cons (hmiss right xs hforeign.right)
    | cons a w ih =>
      have hno : ¬ s <+: a :: (w ++ right :: xs) := by
        intro hprefix
        have hwithin : s <+: a :: w := prefix_of_separated hforeign.right hprefix
        exact hforeign.word (hwithin.isInfix.trans hw.isInfix)
      rw [List.cons_append, replaceAll_cons hno, ih ((List.suffix_cons a w).trans hw)]
      rfl
  rw [replaceAll_cons (hmiss left _ hforeign.left), hword word List.suffix_rfl]

omit [DecidableEq α] in
theorem letters_prefix_of_rendered (hleft : left ∉ u)
    (h : u <+: rendered (left :: (word ++ [right])) t) : letters u <+: t := by
  induction t generalizing u with
  | nil =>
    rw [List.prefix_nil.mp h]
    exact List.nil_prefix
  | cons x t ih =>
    cases x with
    | inl a =>
      rcases List.prefix_cons_iff.mp h with rfl | ⟨u, rfl, hu⟩
      · exact List.nil_prefix
      · refine List.prefix_cons_iff.mpr (.inr ⟨letters u, rfl, ih (fun hmem => ?_) hu⟩)
        exact hleft (List.mem_cons_of_mem _ hmem)
    | inr c =>
      rw [eq_nil_of_prefix_separated hleft h]
      exact List.nil_prefix

omit [DecidableEq α] in
/-- A word foreign to the mark is found in the rendered text only among its letters. -/
theorem letters_infix_of_rendered (hforeign : Foreign left right word s)
    (h : s <:+: rendered (left :: (word ++ [right])) t) : letters s <:+: t := by
  induction t with
  | nil => exact absurd (List.infix_nil.mp h) hforeign.nonempty
  | cons x t ih =>
    cases x with
    | inl a =>
      rcases List.infix_cons_iff.mp h with hprefix | hinfix
      · exact (letters_prefix_of_rendered (t := .inl a :: t) hforeign.left hprefix).isInfix
      · exact List.infix_cons_iff.mpr (.inr (ih hinfix))
    | inr c =>
      have hmarked : rendered (left :: (word ++ [right])) (.inr c :: t) =
          [] ++ left :: (word ++ right :: rendered (left :: (word ++ [right])) t) := by
        simp [rendered]
      rw [hmarked] at h
      rcases infix_of_separated hforeign.nonempty hforeign.left h with hnil | hinfix
      · exact absurd (List.infix_nil.mp hnil) hforeign.nonempty
      · rcases infix_of_separated hforeign.nonempty hforeign.right hinfix with hword | hrest
        · exact absurd hword hforeign.word
        · exact List.infix_cons_iff.mpr (.inr (ih hrest))

/-- The text and the tokens are cut alike. -/
theorem replaceAll_rendered (hforeign : Foreign left right word s) (t : List (Token α)) :
    replaceAll s (left :: (word ++ [right])) (rendered (left :: (word ++ [right])) t) =
      rendered (left :: (word ++ [right])) (cut s t) := by
  induction t using replaceAll_induction (letters_ne_nil hforeign.nonempty) with
  | nil => rfl
  | hit t ih =>
    rw [rendered_append, rendered_letters, replaceAll_match hforeign.nonempty, ih,
      cut_match hforeign.nonempty]
    rfl
  | miss x t hmiss ih =>
    rw [cut_miss hmiss]
    cases x with
    | inl a =>
      have hno : ¬ s <+: a :: rendered (left :: (word ++ [right])) t := fun hprefix =>
        hmiss (letters_prefix_of_rendered (t := .inl a :: t) hforeign.left hprefix)
      exact (replaceAll_cons hno).trans (congrArg (a :: ·) ih)
    | inr c =>
      have hmarked : ∀ t, rendered (left :: (word ++ [right])) (.inr c :: t) =
          left :: (word ++ right :: rendered (left :: (word ++ [right])) t) := by
        intro t
        simp [rendered]
      rw [hmarked, hmarked, replaceAll_mark hforeign, ih]

end Rendered

/-! ### Places -/

/-- The word stands in the text after `i` letters. -/
def OccursAt (s text : List α) (i : ℕ) : Prop := s <+: text.drop i

instance (s text : List α) (i : ℕ) : Decidable (OccursAt s text i) :=
  inferInstanceAs (Decidable (s <+: text.drop i))

/-- Of two stretches, given by start and length, each has a part of the other and a part outside. -/
def PartiallyOverlap (i n j m : ℕ) : Prop :=
  i < j ∧ j < i + n ∧ i + n < j + m ∨ j < i ∧ i < j + m ∧ j + m < i + n

instance (i n j m : ℕ) : Decidable (PartiallyOverlap i n j m) :=
  inferInstanceAs (Decidable (_ ∨ _))

/-- The stretch lies within a word that was cut. -/
def Removed (t : List (Token α)) (i n : ℕ) : Prop :=
  ∃ before c after, t = before ++ .inr c :: after ∧ (original before).length ≤ i ∧
    i + n ≤ (original before).length + c.length

section Places

variable {s : List α} {t : List (Token α)}

omit [DecidableEq α] in
/-- A word at the front is there in letters, or a cut begins in it. -/
theorem letters_prefix_or_cut (h : s <+: original t) : letters s <+: t ∨
    ∃ before c after, t = before ++ .inr c :: after ∧ (original before).length < s.length := by
  induction t generalizing s with
  | nil =>
    rw [List.prefix_nil.mp h]
    exact .inl List.nil_prefix
  | cons x t ih =>
    cases s with
    | nil => exact .inl List.nil_prefix
    | cons b s =>
      cases x with
      | inr c => exact .inr ⟨[], c, t, rfl, by simp [original]⟩
      | inl a =>
        obtain ⟨rfl, hs⟩ := List.cons_prefix_cons.mp h
        rcases ih hs with hletters | ⟨before, c, after, rfl, hlt⟩
        · exact .inl (List.prefix_cons_iff.mpr (.inr ⟨letters s, rfl, hletters⟩))
        · refine .inr ⟨.inl b :: before, c, after, rfl, ?_⟩
          exact Nat.succ_lt_succ hlt

omit [DecidableEq α] in
/-- A word in the original is there in letters, or a cut meets it. -/
theorem letters_infix_or_cut (hs : s ≠ []) {i : ℕ} (h : OccursAt s (original t) i) :
    letters s <:+: t ∨ ∃ before c after, t = before ++ .inr c :: after ∧
      (original before).length < i + s.length ∧ i < (original before).length + c.length := by
  induction t generalizing i with
  | nil =>
    have hnil : s <+: [] := by simpa [OccursAt, original] using h
    exact absurd (List.prefix_nil.mp hnil) hs
  | cons x t ih =>
    have hpos := List.length_pos_iff.mpr hs
    -- before the word begins, a token is passed over with all its letters
    have hpass : ∀ ys : List α, original (x :: t) = ys ++ original t → ys.length ≤ i →
        original [x] = ys → letters s <:+: x :: t ∨ ∃ before c after, x :: t = before ++ .inr c :: after ∧
          (original before).length < i + s.length ∧ i < (original before).length + c.length := by
      intro ys hys hle hx
      have hrest : OccursAt s (original t) (i - ys.length) := by
        unfold OccursAt at h ⊢
        rwa [hys, List.drop_append, List.drop_eq_nil_of_le hle, List.nil_append] at h
      rcases ih hrest with hletters | ⟨before, c, after, rfl, hstart, hend⟩
      · exact .inl (List.infix_cons_iff.mpr (.inr hletters))
      · have hlength : (original (x :: before)).length = ys.length + (original before).length := by
          rw [← hx, ← List.length_append, ← original_append]
          rfl
        exact .inr ⟨x :: before, c, after, rfl, by omega, by omega⟩
    cases x with
    | inl a =>
      cases i with
      | zero =>
        rcases letters_prefix_or_cut (t := .inl a :: t) h with hletters | ⟨before, c, after, ht, hlt⟩
        · exact .inl hletters.isInfix
        · -- the cut comes after the letter `a`
          cases before with
          | nil => cases (List.cons.inj ht).1
          | cons x before =>
            obtain ⟨rfl, -⟩ := List.cons.inj ht
            refine .inr ⟨.inl a :: before, c, after, ht, by omega, ?_⟩
            have hlength : (original (.inl a :: before)).length = (original before).length + 1 := rfl
            omega
      | succ i => exact hpass [a] rfl (by simp) rfl
    | inr c =>
      by_cases hle : c.length ≤ i
      · exact hpass c rfl hle (by simp [original])
      · refine .inr ⟨[], c, t, rfl, Nat.lt_of_lt_of_le hpos (Nat.le_add_left _ _), ?_⟩
        simpa [original] using hle

omit [DecidableEq α] in
theorem occursAt_cut {before after : List (Token α)} {c : List α} (h : t = before ++ .inr c :: after) :
    OccursAt c (original t) (original before).length := by
  have horiginal : original t = original before ++ (c ++ original after) := by
    rw [h, original_append]
    rfl
  rw [OccursAt, horiginal, List.drop_left]
  exact List.prefix_append _ _

omit [DecidableEq α] in
/-- A word that stands within another's place is part of it. -/
theorem infix_of_within {c text : List α} {i j : ℕ} (hs : OccursAt s text i) (hc : OccursAt c text j)
    (hij : i ≤ j) (hend : j + c.length ≤ i + s.length) : c <:+: s := by
  obtain ⟨rest, hrest⟩ := hs
  obtain ⟨k, rfl⟩ := Nat.exists_eq_add_of_le hij
  have hdrop : text.drop (i + k) = s.drop k ++ rest := by
    rw [← List.drop_drop, ← hrest, List.drop_append_of_le_length (by omega)]
  rw [OccursAt, hdrop] at hc
  have hprefix : c <+: s.drop k :=
    List.prefix_of_prefix_length_le hc (List.prefix_append _ _) (by rw [List.length_drop]; omega)
  exact hprefix.isInfix.trans (List.drop_suffix _ _).isInfix

omit [DecidableEq α] in
/-- A word whose letters are gone was cut whole, if no cut overlaps it partially and none is smaller. -/
theorem removed_of_gone {size : List α → ℕ} (hsize : ∀ p q, p <:+: q → size q ≤ size p → p = q)
    (hs : s ≠ []) (hgone : ¬ letters s <:+: t) {i : ℕ} (hoccurs : OccursAt s (original t) i)
    (hcuts : ∀ c, .inr c ∈ t → size s ≤ size c)
    (hpart : ∀ c, .inr c ∈ t → ∀ j, OccursAt c (original t) j →
      ¬ PartiallyOverlap i s.length j c.length) : Removed t i s.length := by
  rcases letters_infix_or_cut hs hoccurs with hletters | ⟨before, c, after, ht, hstart, hend⟩
  · exact absurd hletters hgone
  · have hmem : Sum.inr c ∈ t := by
      rw [ht]
      exact List.mem_append_right _ List.mem_cons_self
    have hplace := occursAt_cut ht
    have hnot := hpart c hmem _ hplace
    unfold PartiallyOverlap at hnot
    by_cases hcovers : (original before).length ≤ i ∧ i + s.length ≤ (original before).length + c.length
    · exact ⟨before, c, after, ht, hcovers⟩
    · -- the cut lies within the word's place, so it is the word
      have hwithin : c <:+: s := infix_of_within hoccurs hplace (by omega) (by omega)
      have hsame : c = s := hsize c s hwithin (hcuts c hmem)
      rw [hsame] at hcovers hnot hend ht
      exact absurd (by omega) hcovers

theorem removed_cut {c : List α} (hc : c ≠ []) {i n : ℕ} (h : Removed t i n) : Removed (cut c t) i n := by
  obtain ⟨before, d, after, ht, hstart, hend⟩ := h
  obtain ⟨before', after', hcut, horiginal⟩ := cut_kept hc ht
  exact ⟨before', d, after', hcut, by rwa [horiginal], by rwa [horiginal]⟩

end Places

/-! ### Many words -/

def redact (mark : List α) (secrets : List (List α)) (text : List α) : List α :=
  secrets.foldl (fun out s => replaceAll s mark out) text

def cutAll (secrets : List (List α)) (t : List (Token α)) : List (Token α) :=
  secrets.foldl (fun t s => cut s t) t

section Many

variable {secrets : List (List α)} {t : List (Token α)}

theorem rendered_cutAll {left right : α} {word : List α}
    (hforeign : ∀ s ∈ secrets, Foreign left right word s) (t : List (Token α)) :
    rendered (left :: (word ++ [right])) (cutAll secrets t) =
      redact (left :: (word ++ [right])) secrets (rendered (left :: (word ++ [right])) t) := by
  induction secrets generalizing t with
  | nil => rfl
  | cons s secrets ih =>
    obtain ⟨hs, hrest⟩ := List.forall_mem_cons.mp hforeign
    rw [cutAll, List.foldl_cons, redact, List.foldl_cons, replaceAll_rendered hs]
    exact ih hrest (cut s t)

/-- What a cut keeps, all cuts keep. -/
theorem cutAll_invariant {P : List (Token α) → Prop} (h : ∀ s ∈ secrets, ∀ t, P t → P (cut s t))
    (ht : P t) : P (cutAll secrets t) := by
  induction secrets generalizing t with
  | nil => exact ht
  | cons s secrets ih =>
    obtain ⟨hs, hrest⟩ := List.forall_mem_cons.mp h
    exact ih hrest (hs t ht)

theorem original_cutAll (hsecrets : ∀ s ∈ secrets, s ≠ []) (t : List (Token α)) :
    original (cutAll secrets t) = original t :=
  cutAll_invariant (P := fun t' => original t' = original t)
    (fun s hs t' ht' => (original_cut (hsecrets s hs) t').trans ht') rfl

theorem mem_secrets_of_cutAll (hsecrets : ∀ s ∈ secrets, s ≠ []) (text : List α) {c : List α}
    (h : .inr c ∈ cutAll secrets (letters text)) : c ∈ secrets := by
  have hcuts : ∀ c, Sum.inr c ∈ cutAll secrets (letters text) → c ∈ secrets := by
    refine cutAll_invariant (P := fun t => ∀ c, Sum.inr c ∈ t → c ∈ secrets) (fun s hs t ht c hc => ?_) ?_
    · rcases mem_cut (hsecrets s hs) hc with rfl | hmem
      · exact hs
      · exact ht c hmem
    · intro c hc
      obtain ⟨a, -, ha⟩ := List.mem_map.mp hc
      cases ha
  exact hcuts c h

theorem not_infix_cutAll (hsecrets : ∀ s ∈ secrets, s ≠ []) {s : List α} (hs : s ∈ secrets)
    (t : List (Token α)) : ¬ letters s <:+: cutAll secrets t := by
  induction secrets generalizing t with
  | nil => cases hs
  | cons a secrets ih =>
    obtain ⟨ha, hrest⟩ := List.forall_mem_cons.mp hsecrets
    rcases List.mem_cons.mp hs with rfl | hmem
    · change ¬ letters s <:+: cutAll secrets (cut s t)
      exact cutAll_invariant (P := fun t => ¬ letters s <:+: t)
        (fun c hc t ht h => ht (letters_infix_of_cut (hrest c hc) h)) (not_infix_cut ha t)
    · exact ih hrest hmem (cut a t)

/-- Largest first, each place that no other overlaps partially is cut whole. -/
theorem removed_cutAll {size : List α → ℕ} (hsize : ∀ p q, p <:+: q → size q ≤ size p → p = q)
    (hsecrets : ∀ s ∈ secrets, s ≠ []) (hsorted : secrets.Pairwise fun a b => size b ≤ size a)
    (hcuts : ∀ c, .inr c ∈ t → ∀ s ∈ secrets, size s ≤ size c) {s : List α} (hs : s ∈ secrets) {i : ℕ}
    (hoccurs : OccursAt s (original t) i)
    (hpart : ∀ c, c ∈ secrets ∨ .inr c ∈ t → ∀ j, OccursAt c (original t) j →
      ¬ PartiallyOverlap i s.length j c.length) : Removed (cutAll secrets t) i s.length := by
  induction secrets generalizing t with
  | nil => cases hs
  | cons a secrets ih =>
    obtain ⟨ha, hrest⟩ := List.forall_mem_cons.mp hsecrets
    obtain ⟨hlargest, htail⟩ := List.pairwise_cons.mp hsorted
    have horiginal := original_cut ha t
    rcases List.mem_cons.mp hs with rfl | hmem
    · have hremoved : Removed (cut s t) i s.length := by
        refine removed_of_gone hsize ha (not_infix_cut ha t) (by rwa [horiginal]) ?_ ?_
        · intro c hc
          rcases mem_cut ha hc with rfl | hc
          · exact le_rfl
          · exact hcuts c hc s List.mem_cons_self
        · intro c hc
          rw [horiginal]
          refine hpart c ((mem_cut ha hc).imp_left ?_)
          rintro rfl
          exact List.mem_cons_self
      change Removed (cutAll secrets (cut s t)) i s.length
      exact cutAll_invariant (P := fun t => Removed t i s.length)
        (fun c hc t ht => removed_cut (hrest c hc) ht) hremoved
    · refine ih hrest htail ?_ hmem (by rwa [horiginal]) ?_
      · intro c hc s' hs'
        rcases mem_cut ha hc with rfl | hc
        · exact hlargest s' hs'
        · exact hcuts c hc s' (List.mem_cons_of_mem _ hs')
      · intro c hc
        rw [horiginal]
        refine hpart c ?_
        rcases hc with hc | hc
        · exact .inl (List.mem_cons_of_mem _ hc)
        · refine (mem_cut ha hc).imp_left ?_
          rintro rfl
          exact List.mem_cons_self

end Many

end FinP2PAdapter.Redaction
