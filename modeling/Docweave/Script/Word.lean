import Docweave.Script.Problem
import Docweave.Text.Blank

set_option autoImplicit false

/-! # Words of a statement

The arguments of a statement are words. A word is bare, and ends at the next blank, or stands in
quotation marks, where a backslash escapes the mark, itself, a line feed and a tab. -/

namespace Docweave

open Docweave.Text

/-- A word of a statement. -/
inductive Word where
  /-- A word without quotation marks around it. -/
  | bare (text : String)
  /-- A string literal, with its escapes resolved. -/
  | quoted (text : String)
deriving DecidableEq, Repr

/-- The character that a letter stands for after a backslash. -/
def unescape? (c : Char) : Option Char :=
  match c with
  | 'n' => some '\n'
  | 't' => some '\t'
  | '"' => some '"'
  | '\\' => some '\\'
  | _ => none

/-- A string literal after its opening quotation mark, and what follows it. -/
def readString (s : List Char) : Except ScriptProblem (List Char × List Char) :=
  match s with
  | [] => .error .unterminatedString
  | '"' :: rest => .ok ([], rest)
  | ['\\'] => .error .unterminatedString
  | '\\' :: c :: rest =>
    match unescape? c with
    | some d => (readString rest).map fun got => (d :: got.1, got.2)
    | none => .error (.unknownEscape c)
  | c :: rest => (readString rest).map fun got => (c :: got.1, got.2)

theorem length_of_readString {s text rest : List Char} (h : readString s = .ok (text, rest)) :
    rest.length < s.length := by
  have step {c : Char} {r : Except ScriptProblem (List Char × List Char)} {text : List Char}
      (h : r.map (fun got => (c :: got.1, got.2)) = .ok (text, rest)) :
      ∃ text, r = .ok (text, rest) := by
    cases r with
    | error e => cases h
    | ok got => cases h; exact ⟨got.1, rfl⟩
  fun_induction readString s generalizing text with
  | case1 => cases h
  | case2 => cases h; simp
  | case3 => cases h
  | case4 c rest' d _ ih =>
    obtain ⟨text', h'⟩ := step h
    have := ih h'
    simp only [List.length_cons]; omega
  | case5 => cases h
  | case6 c rest' _ _ _ ih =>
    obtain ⟨text', h'⟩ := step h
    have := ih h'
    simp only [List.length_cons]; omega

/-- The words of a text. -/
def readWords (s : List Char) : Except ScriptProblem (List Word) :=
  match s with
  | [] => .ok []
  | c :: rest =>
    if isBlank c then readWords rest
    else if c = '"' then
      match _h : readString rest with
      | .error e => .error e
      | .ok (text, rest) => (readWords rest).map (.quoted (.ofList text) :: ·)
    else
      let word := c :: rest.takeWhile (!isBlank ·)
      (readWords (rest.dropWhile (!isBlank ·))).map (.bare (.ofList word) :: ·)
termination_by s.length
decreasing_by
  · simp
  · have := length_of_readString _h
    simp only [List.length_cons]; omega
  · have := (List.dropWhile_sublist (!isBlank ·) (l := rest)).length_le
    simp only [List.length_cons]; omega

/-- A word without blanks and without a quotation mark in front is read as it is. -/
theorem readWords_bare {s : List Char} (hs : s ≠ []) (hblank : ∀ c ∈ s, isBlank c = false)
    (hquote : s.head? ≠ some '"') : readWords s = .ok [.bare (.ofList s)] := by
  cases s with
  | nil => exact absurd rfl hs
  | cons c rest =>
    rw [List.forall_mem_cons] at hblank
    have hword : ∀ d ∈ rest, (!isBlank d) = true := fun d hd => by rw [hblank.2 d hd]; rfl
    have htake : rest.takeWhile (!isBlank ·) = rest := by
      rw [← List.append_nil rest, List.takeWhile_append_of_pos hword]
      rfl
    have hdrop : rest.dropWhile (!isBlank ·) = [] := by
      rw [← List.append_nil rest, List.dropWhile_append_of_pos hword]
      rfl
    have hmark : c ≠ '"' := fun h => hquote (congrArg some h)
    rw [readWords, hblank.1, if_neg Bool.false_ne_true, if_neg hmark]
    simp only [htake, hdrop, readWords]
    rfl

end Docweave
