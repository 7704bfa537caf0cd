import Docweave.Proofs.Text.Spaced
import Docweave.Text.Number

set_option autoImplicit false

/-! # How counts are written

A count is written with digits and at most a plus sign, so that there is no blank in it. The decimal
digits of a number below the bound write it (`count?_toDigits`). -/

namespace Docweave.Text

/-- A count is written with digits, and may have a plus sign in front. -/
theorem head?_or_isDigit_of_count? {s : List Char} {n : Nat} (h : count? s = some n) :
    s.head? = some '+' ∧ (∀ c ∈ s.tail, c.isDigit = true) ∨
      s ≠ [] ∧ ∀ c ∈ s, c.isDigit = true := by
  have hdigits {digits : List Char}
      (h : (if digits.isEmpty || !digits.all Char.isDigit then none
        else if digitsValue digits < countBound then some (digitsValue digits) else none) = some n) :
      digits ≠ [] ∧ ∀ c ∈ digits, c.isDigit = true := by
    split at h
    · cases h
    · next hall =>
      rw [Bool.or_eq_true, not_or, Bool.not_eq_true', Bool.not_eq_false, List.isEmpty_iff] at hall
      exact ⟨hall.1, List.all_eq_true.1 hall.2⟩
  unfold count? at h
  split at h
  · exact .inl ⟨rfl, (hdigits h).2⟩
  · exact .inr (hdigits h)

theorem isDigit_of_mem_count? {s : List Char} {n : Nat} (h : count? s = some n) {c : Char}
    (hc : c ∈ s) : c = '+' ∨ c.isDigit = true := by
  rcases head?_or_isDigit_of_count? h with ⟨hhead, htail⟩ | ⟨-, hall⟩
  · obtain ⟨rest, rfl⟩ := List.head?_eq_some_iff.1 hhead
    exact (List.mem_cons.1 hc).imp_right (htail c)
  · exact .inr (hall c hc)

theorem notMem_of_count? {s : List Char} {n : Nat} (h : count? s = some n) {c : Char} (hc : c ≠ '+')
    (hdigit : c.isDigit = false) : c ∉ s := by
  intro hmem
  rcases isDigit_of_mem_count? h hmem with rfl | hd
  · exact hc rfl
  · rw [hdigit] at hd
    cases hd

theorem ne_nil_of_count? {s : List Char} {n : Nat} (h : count? s = some n) : s ≠ [] := by
  rintro rfl
  cases h

theorem isBlank_of_isDigit {c : Char} (h : c.isDigit = true) : isBlank c = false := by
  rw [Char.isDigit, Bool.and_eq_true, decide_eq_true_eq, decide_eq_true_eq, ge_iff_le,
    UInt32.le_iff_toNat_le, UInt32.le_iff_toNat_le] at h
  obtain ⟨hlow, hhigh⟩ : 48 ≤ c.toNat ∧ c.toNat ≤ 57 := h
  unfold isBlank
  simp only [Bool.or_eq_false_iff, Bool.and_eq_false_iff, decide_eq_false_iff_not, beq_eq_false_iff_ne]
  omega

theorem isUnbroken_of_count? {s : List Char} {n : Nat} (h : count? s = some n) : IsUnbroken s := by
  intro c hc
  rcases isDigit_of_mem_count? h hc with rfl | hd
  · decide
  · exact isBlank_of_isDigit hd

theorem isTrimmed_of_count? {s : List Char} {n : Nat} (h : count? s = some n) : IsTrimmed s :=
  (isUnbroken_of_count? h).isTrimmed

/-- The decimal digits of a number write it. -/
theorem count?_toDigits {n : Nat} (h : n < countBound) : count? (Nat.toDigits 10 n) = some n := by
  have hdigits : (Nat.toDigits 10 n).all Char.isDigit = true :=
    List.all_eq_true.2 fun c hc => Nat.isDigit_of_mem_toDigits (by decide) (by decide) hc
  have hvalue : digitsValue (Nat.toDigits 10 n) = n := Nat.ofDigitChars_toDigits (by decide) (by decide)
  have hnonempty : (Nat.toDigits 10 n).isEmpty = false := List.isEmpty_eq_false_iff.2 Nat.toDigits_ne_nil
  unfold count?
  split
  · next hplus =>
    rw [hplus] at hdigits
    cases hdigits
  · simp only [hdigits, hvalue, hnonempty, Bool.not_true, Bool.or_false, if_neg Bool.false_ne_true, if_pos h]

end Docweave.Text
