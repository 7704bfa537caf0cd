import Docweave.Conformance.TestFile
import Docweave.Text.Newline

set_option autoImplicit false

/-! # Texts with the same lines

Line ends are normalized in two replacements, which `normalizeNewlines_eq_onlyFeeds` shows to be one
scan of the text. `SameLines` is what two texts are that write the same lines and differ only in which
of the lines end in a line feed alone; normalization makes them one text. -/

namespace Docweave.Text

/-! ## Normalization as a scan -/

/-- The text read once, from left to right, with a line feed for each line end. -/
def onlyFeeds : List Char → List Char
  | [] => []
  | '\r' :: '\n' :: rest => '\n' :: onlyFeeds rest
  | '\r' :: rest => '\n' :: onlyFeeds rest
  | c :: rest => c :: onlyFeeds rest

theorem normalizeNewlines_eq_onlyFeeds (s : List Char) : normalizeNewlines s = onlyFeeds s := by
  unfold normalizeNewlines replaceAll
  fun_induction onlyFeeds s with
  | case1 => rfl
  | case2 rest ih => simpa [replaceFrom, List.isPrefixOf] using ih
  | case3 rest hfeed ih =>
    have hprefix : ['\r', '\n'].isPrefixOf ('\r' :: rest) = false := by
      cases rest with
      | nil => rfl
      | cons c rest =>
        have hc : c ≠ '\n' := fun h => hfeed rest (by rw [h])
        simpa [List.isPrefixOf] using hc.symm
    simpa [replaceFrom, hprefix] using ih
  | case4 c rest _ hreturn ih =>
    have hc : '\r' ≠ c := fun h => hreturn h.symm
    simpa [replaceFrom, List.isPrefixOf, hc, hc.symm] using ih

/-- No line end begins at a character other than a carriage return, so that the scan starts anew
after it. -/
theorem onlyFeeds_append_cons {c : Char} (hc : c ≠ '\r') (s rest : List Char) :
    onlyFeeds (s ++ c :: rest) = onlyFeeds (s ++ [c]) ++ onlyFeeds rest := by
  fun_induction onlyFeeds s with
  | case1 => simp [onlyFeeds, hc]
  | case2 s ih => simpa [onlyFeeds] using ih
  | case3 s hfeed ih =>
    cases s with
    | nil =>
      by_cases hpair : c = '\n'
      · simp [onlyFeeds, hpair]
      · simp [onlyFeeds, hpair, hc]
    | cons d s =>
      have hd : d ≠ '\n' := fun h => hfeed s (by rw [h])
      simpa [onlyFeeds, hd] using ih
  | case4 d s _ hreturn ih =>
    have hd : d ≠ '\r' := hreturn
    simpa [onlyFeeds, hd] using ih

/-! ## The same lines -/

/-- Two texts write the same lines. A carriage return at the end of a line would be taken for a part of
the line end if a line feed followed, so that such a line has to end alike in both. -/
inductive SameLines : List Char → List Char → Prop where
  /-- What is the same in both, line ends included. -/
  | last (rest : List Char) : SameLines rest rest
  /-- A line before others. -/
  | line {line s t : List Char} {one other : LineEnd} (hfeed : '\n' ∉ line)
      (hends : line.getLast? = some '\r' → one = other) (hrest : SameLines s t) :
      SameLines (line ++ (one.chars ++ s)) (line ++ (other.chars ++ t))

/-- The text up to a line end is read without what follows. -/
theorem onlyFeeds_append_lineEnd (line : List Char) (lineEnd : LineEnd) (rest : List Char) :
    onlyFeeds (line ++ (lineEnd.chars ++ rest)) =
      onlyFeeds (line ++ lineEnd.chars) ++ onlyFeeds rest := by
  have hfeed : '\n' ≠ '\r' := by decide
  cases lineEnd with
  | lf => exact onlyFeeds_append_cons hfeed line rest
  | crlf => simpa [LineEnd.chars] using onlyFeeds_append_cons hfeed (line ++ ['\r']) rest

/-- Behind a character other than a carriage return both line ends are read as a line feed. -/
theorem onlyFeeds_lineEnd {line : List Char} (h : line.getLast? ≠ some '\r') (lineEnd : LineEnd) :
    onlyFeeds (line ++ lineEnd.chars) = onlyFeeds line ++ ['\n'] := by
  rcases List.eq_nil_or_concat line with rfl | ⟨before, c, rfl⟩
  · cases lineEnd <;> simp [LineEnd.chars, onlyFeeds]
  · have hc : c ≠ '\r' := by simpa using h
    have hcut := onlyFeeds_append_cons hc before
    cases lineEnd with
    | lf => simpa [LineEnd.chars, onlyFeeds] using hcut ['\n']
    | crlf => simpa [LineEnd.chars, onlyFeeds] using hcut ['\r', '\n']

theorem onlyFeeds_eq_of_sameLines {s t : List Char} (h : SameLines s t) :
    onlyFeeds s = onlyFeeds t := by
  induction h with
  | last rest => rfl
  | @line line s t one other hfeed hends _ ih =>
    have hline : onlyFeeds (line ++ one.chars) = onlyFeeds (line ++ other.chars) := by
      by_cases hreturn : line.getLast? = some '\r'
      · rw [hends hreturn]
      · rw [onlyFeeds_lineEnd hreturn, onlyFeeds_lineEnd hreturn]
    rw [onlyFeeds_append_lineEnd, onlyFeeds_append_lineEnd, hline, ih]

/-- Texts with the same lines are the same once their line ends are normalized. -/
theorem normalizeNewlines_eq_of_sameLines {s t : List Char} (h : SameLines s t) :
    normalizeNewlines s = normalizeNewlines t := by
  rw [normalizeNewlines_eq_onlyFeeds, normalizeNewlines_eq_onlyFeeds, onlyFeeds_eq_of_sameLines h]

end Docweave.Text
