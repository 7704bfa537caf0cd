import Docweave.Text.Alphanumeric
import Docweave.Text.Blank
import Docweave.Text.Search
import Mathlib.Data.List.Basic

set_option autoImplicit false

/-! # Characters that a text is told apart by

Where a text is cut at a mark, the part in front of it is free of the mark. Blanks are neither letters
nor numbers. -/

namespace Docweave.Text

/-! ## Marks -/

theorem splitAtFirst?_mark {mark : Char} {before : List Char} (h : mark ∉ before) (after : List Char) :
    splitAtFirst? (· == mark) (before ++ mark :: after) = some (before, after) := by
  have hfree : ∀ c ∈ before, (c == mark) = false := fun c hc =>
    beq_eq_false_iff_ne.2 fun heq => h (heq ▸ hc)
  exact splitAtFirst?_append hfree (c := mark) (beq_self_eq_true mark) after

/-- A text is cut at the first character of the class. -/
theorem exists_of_splitAtFirst? {p : Char → Bool} {s before after : List Char}
    (h : splitAtFirst? p s = some (before, after)) :
    ∃ c, s = before ++ c :: after ∧ p c = true ∧ ∀ d ∈ before, p d = false := by
  induction s generalizing before with
  | nil => cases h
  | cons c s ih =>
    rw [splitAtFirst?] at h
    split at h
    · next hc =>
      cases h
      exact ⟨c, rfl, hc, fun _ hmem => absurd hmem List.not_mem_nil⟩
    · next hc =>
      obtain ⟨parts, hparts, heq⟩ := Option.map_eq_some_iff.1 h
      cases heq
      obtain ⟨d, hs, hd, hbefore⟩ := ih hparts
      exact ⟨d, by rw [hs]; rfl, hd, List.forall_mem_cons.2 ⟨Bool.eq_false_iff.2 hc, hbefore⟩⟩

theorem splitAtFirst?_eq_some_iff {mark : Char} {s before after : List Char} :
    splitAtFirst? (· == mark) s = some (before, after) ↔
      s = before ++ mark :: after ∧ mark ∉ before := by
  constructor
  · intro h
    obtain ⟨c, hs, hc, hbefore⟩ := exists_of_splitAtFirst? h
    obtain rfl : c = mark := beq_iff_eq.1 hc
    exact ⟨hs, fun hmem => beq_eq_false_iff_ne.1 (hbefore c hmem) rfl⟩
  · rintro ⟨rfl, hbefore⟩
    exact splitAtFirst?_mark hbefore after

theorem splitAtFirst?_eq_none_iff {mark : Char} {s : List Char} :
    splitAtFirst? (· == mark) s = none ↔ mark ∉ s := by
  constructor
  · intro h hmem
    obtain ⟨before, after, rfl, hbefore⟩ := List.eq_append_cons_of_mem hmem
    rw [splitAtFirst?_mark hbefore] at h
    cases h
  · intro h
    cases hs : splitAtFirst? (· == mark) s with
    | none => rfl
    | some parts =>
      obtain ⟨rfl, -⟩ := splitAtFirst?_eq_some_iff.1 hs
      exact absurd (List.mem_append_right _ List.mem_cons_self) h

/-! ## The last character -/

theorem dropFinal_eq_self {c : Char} {s : List Char} (h : s.getLast? ≠ some c) : dropFinal c s = s := by
  unfold dropFinal stripEnd?
  rw [if_neg h]
  rfl

/-- A text may have one character more than what is left of it. -/
theorem eq_dropFinal_or (c : Char) (s : List Char) : s = dropFinal c s ∨ s = dropFinal c s ++ [c] := by
  unfold dropFinal stripEnd?
  split
  · next hlast =>
    obtain ⟨rest, rfl⟩ := List.getLast?_eq_some_iff.1 hlast
    exact .inr (by rw [List.dropLast_concat]; rfl)
  · exact .inl rfl

theorem dropFinal_concat (c : Char) (s : List Char) : dropFinal c (s ++ [c]) = s := by
  unfold dropFinal stripEnd?
  rw [if_pos List.getLast?_concat, List.dropLast_concat]
  rfl

/-- The last character of a text is the last one of its second part. -/
theorem dropFinal_append (s : List Char) {t : List Char} (ht : t ≠ []) (c : Char) :
    dropFinal c (s ++ t) = s ++ dropFinal c t := by
  unfold dropFinal stripEnd?
  rw [List.getLast?_append_of_ne_nil _ ht, List.dropLast_append_of_ne_nil ht]
  split
  · rfl
  · rfl

/-! ## Blanks -/

/-- The blanks by their code points. -/
def blankRanges : List (Nat × Nat) :=
  [(0x09, 0x0D), (0x20, 0x20), (0x85, 0x85), (0xA0, 0xA0), (0x1680, 0x1680), (0x2000, 0x200A),
    (0x2028, 0x2029), (0x202F, 0x202F), (0x205F, 0x205F), (0x3000, 0x3000)]

theorem inRanges_of_isBlank {c : Char} (h : isBlank c = true) : inRanges blankRanges c = true := by
  simp only [isBlank, Bool.or_eq_true, Bool.and_eq_true, decide_eq_true_eq, beq_iff_eq] at h
  simp only [inRanges, blankRanges, List.any_cons, List.any_nil, Bool.or_eq_true, Bool.and_eq_true,
    decide_eq_true_eq, Bool.false_eq_true]
  omega

/-- Blanks are neither letters nor numbers. -/
theorem isAlphanumeric_of_isBlank {c : Char} (h : isBlank c = true) : isAlphanumeric c = false := by
  obtain ⟨blank, hblank, hlow, hhigh⟩ := inRanges_iff.1 (inRanges_of_isBlank h)
  -- no range of blanks meets a range of letters and numbers
  have hapart : (blankRanges.all fun b =>
      alphanumericRanges.all fun r => b.2 < r.1 || r.2 < b.1) = true := by decide +kernel
  have hascii : ∀ n < 0x80, inRanges blankRanges (Char.ofNat n) = true →
      (Char.ofNat n).isAlphanum = false := by decide
  rw [Bool.eq_false_iff]
  intro halpha
  unfold isAlphanumeric at halpha
  split at halpha
  · next hsmall =>
    have hnot := hascii c.toNat hsmall (by rw [Char.ofNat_toNat]; exact inRanges_of_isBlank h)
    rw [Char.ofNat_toNat, halpha] at hnot
    cases hnot
  · obtain ⟨range, hrange, hlow', hhigh'⟩ := inRanges_iff.1 halpha
    have hboth := List.all_eq_true.1 (List.all_eq_true.1 hapart blank hblank) range hrange
    simp only [Bool.or_eq_true, decide_eq_true_eq] at hboth
    omega

end Docweave.Text
