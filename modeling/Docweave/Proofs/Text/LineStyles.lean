import Docweave.Cache
import Docweave.Proofs.Text.LineEnds

set_option autoImplicit false

/-! # The same text with other line ends

A text whose lines end in line feeds can be written in other styles: with any of its line feeds as pairs,
or with carriage returns in place of all of them. Normalization takes the style away, and with it what
could tell the digests of the texts apart. A mixture of the two is no style: a carriage return and the
line feed of an empty line after it would make one line end. -/

namespace Docweave.Text

/-- The text with a carriage return in front of the line feeds at the chosen places, which are counted
from zero. -/
def pairFeeds (chosen : Nat → Bool) (s : List Char) : List Char :=
  (s.mapIdx fun place c => if c = '\n' && chosen place then ['\r', '\n'] else [c]).flatten

/-- The text with a carriage return in place of each line feed. -/
def replaceFeeds (s : List Char) : List Char := s.map fun c => if c = '\n' then '\r' else c

/-- How the line feeds of a text are written. -/
inductive LineStyle where
  /-- The chosen ones as pairs. -/
  | pairs (chosen : Nat → Bool)
  /-- All of them as carriage returns. -/
  | returns

/-- The text in a style. -/
def LineStyle.write : LineStyle → List Char → List Char
  | .pairs chosen => pairFeeds chosen
  | .returns => replaceFeeds

/-! ## Pairs -/

theorem pairFeeds_cons (chosen : Nat → Bool) (c : Char) (rest : List Char) :
    pairFeeds chosen (c :: rest) =
      (if c = '\n' && chosen 0 then ['\r', '\n'] else [c]) ++
        pairFeeds (fun place => chosen (place + 1)) rest := by
  unfold pairFeeds
  rw [List.mapIdx_cons, List.flatten_cons]

theorem onlyFeeds_cons {c : Char} (hc : c ≠ '\r') (rest : List Char) :
    onlyFeeds (c :: rest) = c :: onlyFeeds rest := by
  rw [onlyFeeds]
  · exact fun _ h _ => hc h
  · exact hc

theorem onlyFeeds_pairFeeds {s : List Char} (h : '\r' ∉ s) (chosen : Nat → Bool) :
    onlyFeeds (pairFeeds chosen s) = s := by
  induction s generalizing chosen with
  | nil => rfl
  | cons c rest ih =>
    rw [List.mem_cons, not_or] at h
    have hrest := ih h.2 fun place => chosen (place + 1)
    rw [pairFeeds_cons]
    split
    · next hpair =>
      rw [Bool.and_eq_true, decide_eq_true_eq] at hpair
      rw [hpair.1, List.cons_append, List.singleton_append, onlyFeeds, hrest]
    · rw [List.singleton_append, onlyFeeds_cons (Ne.symm h.1), hrest]

/-! ## Carriage returns -/

/-- Without line feeds, each carriage return is a line end of its own. -/
theorem onlyFeeds_of_notMem {s : List Char} (h : '\n' ∉ s) :
    onlyFeeds s = s.map fun c => if c = '\r' then '\n' else c := by
  fun_induction onlyFeeds s with
  | case1 => rfl
  | case2 rest ih => exact absurd (List.mem_cons_of_mem _ List.mem_cons_self) h
  | case3 rest hfeed ih => rw [List.map_cons, if_pos rfl, ih (List.not_mem_of_not_mem_cons h)]
  | case4 c rest hpair hreturn ih =>
    have hc : c ≠ '\r' := hreturn
    rw [List.map_cons, if_neg hc, ih (List.not_mem_of_not_mem_cons h)]

theorem onlyFeeds_replaceFeeds {s : List Char} (h : '\r' ∉ s) : onlyFeeds (replaceFeeds s) = s := by
  have hfeeds : '\n' ∉ replaceFeeds s := notMem_map_ite (by decide) s
  rw [onlyFeeds_of_notMem hfeeds, replaceFeeds, List.map_map]
  refine (List.map_congr_left fun c hc => ?_).trans (List.map_id s)
  have hne : c ≠ '\r' := fun heq => h (heq ▸ hc)
  by_cases hfeed : c = '\n'
  · subst hfeed
    rfl
  · simp [hfeed, hne]

/-! ## Any style -/

theorem normalizeNewlines_write (style : LineStyle) {s : List Char} (h : '\r' ∉ s) :
    normalizeNewlines (style.write s) = s := by
  rw [normalizeNewlines_eq_onlyFeeds]
  cases style with
  | pairs chosen => exact onlyFeeds_pairFeeds h chosen
  | returns => exact onlyFeeds_replaceFeeds h

/-- Normalization is one scan of the text, leaves no carriage return and nothing to do for a second one.
It gives back a text without carriage returns from each style that it can be written in, so that all of
them are held under one digest. -/
theorem normalizeNewlines_scans (s : List Char) :
    normalizeNewlines s = onlyFeeds s ∧ '\r' ∉ normalizeNewlines s ∧
      normalizeNewlines (normalizeNewlines s) = normalizeNewlines s ∧
      ('\r' ∉ s → ∀ style : LineStyle,
        normalizeNewlines (style.write s) = s ∧ contentKey (style.write s) = contentKey s) := by
  have hfree := cr_notMem_normalizeNewlines s
  refine ⟨normalizeNewlines_eq_onlyFeeds s, hfree, normalizeNewlines_of_notMem hfree, ?_⟩
  intro h style
  have hwrite := normalizeNewlines_write style h
  refine ⟨hwrite, ?_⟩
  unfold contentKey
  rw [hwrite, normalizeNewlines_of_notMem h]

/-- An empty line, with the second of its two line feeds as a pair and with carriage returns only. -/
theorem normalizeNewlines_scans_emptyLine :
    '\r' ∉ ['a', '\n', '\n', 'b'] ∧
      normalizeNewlines ['a', '\n', '\r', '\n', 'b'] = ['a', '\n', '\n', 'b'] ∧
      contentKey ['a', '\n', '\r', '\n', 'b'] = contentKey ['a', '\n', '\n', 'b'] ∧
      normalizeNewlines ['a', '\r', '\r', 'b'] = ['a', '\n', '\n', 'b'] ∧
      contentKey ['a', '\r', '\r', 'b'] = contentKey ['a', '\n', '\n', 'b'] := by
  have hfree : '\r' ∉ ['a', '\n', '\n', 'b'] := by decide
  have hstyles := (normalizeNewlines_scans ['a', '\n', '\n', 'b']).2.2.2 hfree
  obtain ⟨hpairs, hpairsKey⟩ := hstyles (.pairs (· == 2))
  obtain ⟨hreturns, hreturnsKey⟩ := hstyles .returns
  exact ⟨hfree, hpairs, hpairsKey, hreturns, hreturnsKey⟩

end Docweave.Text
