set_option autoImplicit false

/-! # Finding and replacing inside a text

Prefixes, first occurrences and replacement. All of them read from left to right. -/

namespace Docweave.Text

/-- What follows `start` in a text that begins with it. -/
def stripStart? (start s : List Char) : Option (List Char) := start.isPrefixOf? s

/-- A text is its start followed by what is left of it. -/
theorem eq_append_of_stripStart? {start s rest : List Char} (h : stripStart? start s = some rest) :
    start ++ rest = s := by
  induction start generalizing s with
  | nil =>
    have hs : some s = some rest := h
    exact (Option.some.inj hs).symm
  | cons c start ih =>
    cases s with
    | nil => cases h
    | cons d s =>
      change (if c == d then stripStart? start s else none) = some rest at h
      split at h
      · next hcd => rw [beq_iff_eq.1 hcd, List.cons_append, ih h]
      · cases h

/-- What precedes the last character in a text that ends with `c`. -/
def stripEnd? (c : Char) (s : List Char) : Option (List Char) :=
  if s.getLast? = some c then some s.dropLast else none

/-- The text without a final `c`. -/
def dropFinal (c : Char) (s : List Char) : List Char := (stripEnd? c s).getD s

/-- The parts before and after the first character of class `p`. -/
def splitAtFirst? (p : Char → Bool) : List Char → Option (List Char × List Char)
  | [] => none
  | c :: rest =>
    if p c then some ([], rest)
    else (splitAtFirst? p rest).map fun parts => (c :: parts.1, parts.2)

theorem splitAtFirst?_append {p : Char → Bool} {s : List Char} (h : ∀ c ∈ s, p c = false) {c : Char}
    (hc : p c = true) (rest : List Char) : splitAtFirst? p (s ++ c :: rest) = some (s, rest) := by
  induction s with
  | nil =>
    rw [List.nil_append, splitAtFirst?, if_pos hc]
  | cons d s ih =>
    rw [List.forall_mem_cons] at h
    rw [List.cons_append, splitAtFirst?, h.1, ih h.2]
    rfl

/-- The parts before and after the first place where `mark` stands. -/
def splitAtText? (mark : List Char) : List Char → Option (List Char × List Char)
  | [] => if mark.isEmpty then some ([], []) else none
  | c :: rest =>
    match stripStart? mark (c :: rest) with
    | some after => some ([], after)
    | none => (splitAtText? mark rest).map fun parts => (c :: parts.1, parts.2)

/-- The pieces of a text between the occurrences of `mark`; one more than there are occurrences. -/
def splitOn (mark : Char) : List Char → List (List Char)
  | [] => [[]]
  | c :: rest =>
    if c = mark then [] :: splitOn mark rest
    else match splitOn mark rest with
      | piece :: pieces => (c :: piece) :: pieces
      | [] => [[c]]

/-- `part` stands somewhere in the text. -/
def occursIn (part : List Char) : List Char → Bool
  | [] => part.isEmpty
  | c :: rest => part.isPrefixOf (c :: rest) || occursIn part rest

/-- Replacement while the first `skip` characters are already accounted for. -/
def replaceFrom (old new : List Char) : Nat → List Char → List Char
  | _, [] => []
  | skip + 1, _ :: rest => replaceFrom old new skip rest
  | 0, c :: rest =>
    if old.isPrefixOf (c :: rest) then new ++ replaceFrom old new (old.length - 1) rest
    else c :: replaceFrom old new 0 rest

/-- The text with every occurrence of `old`, which is not empty, replaced by `new`. -/
def replaceAll (old new s : List Char) : List Char := replaceFrom old new 0 s

/-- Where the first character of `old` does not occur, there is nothing to replace. -/
theorem replaceAll_of_notMem {c : Char} {s : List Char} (h : c ∉ s) (old new : List Char) :
    replaceAll (c :: old) new s = s := by
  unfold replaceAll
  induction s with
  | nil => rfl
  | cons d s ih =>
    rw [List.mem_cons, not_or] at h
    obtain ⟨hne, hs⟩ := h
    have hprefix : (c :: old).isPrefixOf (d :: s) = false := by simp [List.isPrefixOf, hne]
    rw [replaceFrom, hprefix, ih hs]
    rfl

/-- The text cut after each line feed. The last line may lack one; it is never empty. -/
def splitLines : List Char → List (List Char)
  | [] => []
  | c :: rest =>
    if c = '\n' then [c] :: splitLines rest
    else match splitLines rest with
      | line :: lines => (c :: line) :: lines
      | [] => [[c]]

/-- Cutting into lines loses nothing. -/
theorem flatten_splitLines (s : List Char) : (splitLines s).flatten = s := by
  induction s with
  | nil => rfl
  | cons c rest ih =>
    unfold splitLines
    split
    · simp [ih]
    · split
      · next h => rw [h] at ih; simpa using ih
      · next h => rw [h] at ih; simpa using ih

/-- A text without a line feed is one line. -/
theorem splitLines_of_notMem {s : List Char} (h : '\n' ∉ s) (hs : s ≠ []) : splitLines s = [s] := by
  induction s with
  | nil => exact absurd rfl hs
  | cons c rest ih =>
    rw [List.mem_cons, not_or] at h
    obtain ⟨hne, hrest⟩ := h
    rw [splitLines, if_neg (Ne.symm hne)]
    cases rest with
    | nil => rfl
    | cons d rest => rw [ih hrest (List.cons_ne_nil _ _)]

end Docweave.Text
