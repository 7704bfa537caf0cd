import Docweave.Proofs.Text.Offsets
import Docweave.Proofs.Text.Spaced

set_option autoImplicit false

/-! # Lines of a text

A line stands between two line feeds, or between one of them and an end of the text. `IsStrippedLine` says
where in a text a line without the blanks at its ends is, with no regard to how lines are cut. What holds
of the cutting is proved line by line, by `lines_induction`. -/

namespace Docweave.Text

/-! ## Where a line stands -/

/-- The text is made of what comes before a line, the line, and what comes after it. -/
structure IsLine (source before line after : List Char) : Prop where
  source : source = before ++ (line ++ after)
  starts : before = [] ∨ before.getLast? = some '\n'
  whole : '\n' ∉ line
  ends : after = [] ∨ after.head? = some '\n'

/-- The bytes of the range are a line that is not blank, without the blanks at its ends. -/
def IsStrippedLine (source : List Char) (span : Span) (text : List Char) : Prop :=
  ∃ before lead trail after, IsLine source before (lead ++ (text ++ trail)) after ∧
    AllBlank lead ∧ AllBlank trail ∧ IsTrimmed text ∧ text ≠ [] ∧
    span = ⟨byteLength before + byteLength lead,
      byteLength before + byteLength lead + byteLength text⟩

namespace IsStrippedLine

variable {source text : List Char} {span : Span} (h : IsStrippedLine source span text)

include h

theorem cuts : span.Cuts source text := by
  obtain ⟨before, lead, trail, after, hline, -, -, -, -, rfl⟩ := h
  exact ⟨before ++ lead, trail ++ after, by rw [hline.source]; simp, by simp⟩

theorem ne_nil : text ≠ [] := by
  obtain ⟨-, -, -, -, -, -, -, -, hne, -⟩ := h
  exact hne

theorem isTrimmed : IsTrimmed text := by
  obtain ⟨-, -, -, -, -, -, -, htext, -⟩ := h
  exact htext

theorem newline_notMem : '\n' ∉ text := by
  obtain ⟨_, _, _, _, hline, -⟩ := h
  exact fun hmem => hline.whole (List.mem_append_right _ (List.mem_append_left _ hmem))

end IsStrippedLine

/-! ## Cutting into lines -/

/-- What holds of texts without a line feed, and of a line with a line feed and a text behind it if it
holds of that text, holds of all texts. -/
theorem lines_induction {motive : List Char → Prop} (last : ∀ line, '\n' ∉ line → motive line)
    (more : ∀ line rest, '\n' ∉ line → motive rest → motive (line ++ '\n' :: rest))
    (s : List Char) : motive s := by
  by_cases hfeed : '\n' ∈ s
  · obtain ⟨line, rest, hs, hline⟩ := List.eq_append_cons_of_mem hfeed
    have hshorter : rest.length < s.length := by
      rw [hs]
      simp only [List.length_append, List.length_cons]
      omega
    exact hs ▸ more line rest hline (lines_induction last more rest)
  · exact last s hfeed
termination_by s.length

/-- The first line goes up to the first line feed. -/
theorem splitLines_line {line : List Char} (h : '\n' ∉ line) (rest : List Char) :
    splitLines (line ++ '\n' :: rest) = (line ++ ['\n']) :: splitLines rest := by
  induction line with
  | nil => rfl
  | cons c line ih =>
    rw [List.mem_cons, not_or] at h
    rw [List.cons_append, splitLines, if_neg (Ne.symm h.1), ih h.2]
    rfl

/-- A text that is not blank is what trimming leaves, with blanks around it. -/
theorem allBlank_or_exists_trimmed (s : List Char) :
    AllBlank s ∨ ∃ lead text trail, s = lead ++ (text ++ trail) ∧ AllBlank lead ∧ AllBlank trail ∧
      IsTrimmed text ∧ text ≠ [] := by
  obtain ⟨lead, trail, hs, hlead, htrail⟩ := exists_blanks_trim s
  by_cases hnil : trim s = []
  · rw [hnil, List.nil_append] at hs
    exact .inl (hs ▸ hlead.append htrail)
  · exact .inr ⟨lead, trim s, trail, hs, hlead, htrail, isTrimmed_trim s, hnil⟩

end Docweave.Text
