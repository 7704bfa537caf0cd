import Docweave.Text.Search

set_option autoImplicit false

/-! # Line ends

A line ends in a line feed, in a carriage return, or in the two together. -/

namespace Docweave.Text

/-- The text with every line end written as a line feed. -/
def normalizeNewlines (s : List Char) : List Char :=
  (replaceAll ['\r', '\n'] ['\n'] s).map fun c => if c = '\r' then '\n' else c

/-- Where each `old` became another character, none is left. -/
theorem notMem_map_ite {old new : Char} (hne : new ≠ old) (s : List Char) :
    old ∉ s.map fun c => if c = old then new else c := by
  intro h
  obtain ⟨c, -, hc⟩ := List.mem_map.1 h
  split at hc
  · exact hne hc
  · next hold => exact hold hc

/-- No carriage return is left. -/
theorem cr_notMem_normalizeNewlines (s : List Char) : '\r' ∉ normalizeNewlines s :=
  notMem_map_ite (by decide) _

/-- Without a carriage return nothing changes. -/
theorem normalizeNewlines_of_notMem {s : List Char} (h : '\r' ∉ s) : normalizeNewlines s = s := by
  unfold normalizeNewlines
  rw [replaceAll_of_notMem h]
  refine (List.map_congr_left fun c hc => ?_).trans (List.map_id s)
  exact if_neg fun heq : c = '\r' => h (heq ▸ hc)

end Docweave.Text
