import Docweave.Proofs.Gives
import Docweave.Proofs.Text.Spaced
import Docweave.Script.Word

set_option autoImplicit false

/-! # Words and the texts they are read from

Any text can be written as a string literal (`stringLiteral`), and what is written is read back. In the
other direction the words of a text tell where its blanks are and what it ends with. -/

namespace Docweave

open Docweave.Text

/-! ## String literals -/

/-- A character as it is written in a string literal. -/
def escaped (c : Char) : List Char :=
  match c with
  | '\\' => ['\\', '\\']
  | '"' => ['\\', '"']
  | '\n' => ['\\', 'n']
  | '\t' => ['\\', 't']
  | c => [c]

/-- The string literal for a text. -/
def stringLiteral (s : List Char) : List Char := '"' :: (s.flatMap escaped ++ ['"'])

theorem escaped_cases (c : Char) :
    (∃ d, escaped c = ['\\', d] ∧ unescape? d = some c ∧ d ≠ '\n') ∨
      (escaped c = [c] ∧ c ≠ '\\' ∧ c ≠ '"' ∧ c ≠ '\n') := by
  unfold escaped
  split
  · exact .inl ⟨'\\', rfl, rfl, by decide⟩
  · exact .inl ⟨'"', rfl, rfl, by decide⟩
  · exact .inl ⟨'n', rfl, rfl, by decide⟩
  · exact .inl ⟨'t', rfl, rfl, by decide⟩
  · next hslash hquote hfeed _ => exact .inr ⟨rfl, hslash, hquote, hfeed⟩

/-- A literal is read up to its closing quotation mark, whatever stands behind it. -/
theorem readString_escaped (s rest : List Char) :
    readString (s.flatMap escaped ++ '"' :: rest) = .ok (s, rest) := by
  induction s with
  | nil => simp [readString]
  | cons c s ih =>
    rw [List.flatMap_cons, List.append_assoc]
    rcases escaped_cases c with ⟨d, hd, hback, -⟩ | ⟨hc, hslash, hquote, -⟩
    · rw [hd, List.cons_append, List.cons_append, List.nil_append, readString, hback, ih]
      rfl
    · rw [hc, List.cons_append, List.nil_append, readString, ih]
      · rfl
      · exact hquote
      · exact fun h _ => hslash h
      · exact fun _ _ h _ => hslash h

theorem newline_notMem_stringLiteral (s : List Char) : '\n' ∉ stringLiteral s := by
  have hbody : '\n' ∉ s.flatMap escaped := by
    intro hmem
    obtain ⟨c, -, hc⟩ := List.mem_flatMap.1 hmem
    rcases escaped_cases c with ⟨d, hd, -, hfeed⟩ | ⟨hself, -, -, hfeed⟩
    · rw [hd] at hc
      simp [Ne.symm hfeed] at hc
    · rw [hself, List.mem_singleton] at hc
      exact hfeed hc.symm
  simp [stringLiteral, hbody]

theorem getLast?_stringLiteral (s : List Char) : (stringLiteral s).getLast? = some '"' := by
  rw [stringLiteral, ← List.cons_append, List.getLast?_concat]

theorem readWords_blank {blank : Char} (h : isBlank blank = true) (rest : List Char) :
    readWords (blank :: rest) = readWords rest := by
  rw [readWords, if_pos h]

theorem readWords_stringLiteral_append (s rest : List Char) :
    readWords (stringLiteral s ++ rest) = (readWords rest).map (.quoted (.ofList s) :: ·) := by
  have hstring := readString_escaped s rest
  rw [stringLiteral, List.cons_append, List.append_assoc, List.singleton_append, readWords,
    if_neg (by decide), if_pos rfl]
  split
  · next heq =>
    rw [hstring] at heq
    cases heq
  · next heq =>
    rw [hstring] at heq
    cases heq
    rfl

theorem readWords_stringLiteral (s : List Char) :
    readWords (stringLiteral s) = .ok [.quoted (.ofList s)] := by
  rw [← List.append_nil (stringLiteral s), readWords_stringLiteral_append, readWords]
  rfl

/-! ## What the words of a text tell of it -/

/-- A bare word ends at the next blank. -/
theorem readWords_cons {c : Char} (hblank : isBlank c = false) (hquote : c ≠ '"') (rest : List Char) :
    readWords (c :: rest) = (readWords (rest.dropWhile (!isBlank ·))).map
      (.bare (.ofList (c :: rest.takeWhile (!isBlank ·))) :: ·) := by
  rw [readWords, hblank, if_neg Bool.false_ne_true, if_neg hquote]

/-- A bare word in front of a blank. -/
theorem readWords_bare_append {word : List Char} (hword : word ≠ [])
    (hunbroken : IsUnbroken word) (hquote : word.head? ≠ some '"') {blank : Char}
    (hblank : isBlank blank = true) (rest : List Char) :
    readWords (word ++ blank :: rest) = (readWords rest).map (.bare (.ofList word) :: ·) := by
  obtain ⟨c, more, rfl⟩ := List.exists_cons_of_ne_nil hword
  obtain ⟨hc, hmore⟩ := List.forall_mem_cons.1 hunbroken
  have hkept : ∀ d ∈ more, (!isBlank d) = true := fun d hd => by rw [hmore d hd]; rfl
  have htake : (blank :: rest).takeWhile (!isBlank ·) = [] :=
    List.takeWhile_cons_of_neg (by simp [hblank])
  have hdrop : (blank :: rest).dropWhile (!isBlank ·) = blank :: rest :=
    List.dropWhile_cons_of_neg (by simp [hblank])
  rw [List.cons_append, readWords_cons hc fun h => hquote (congrArg some h),
    List.takeWhile_append_of_pos hkept, List.dropWhile_append_of_pos hkept, htake, hdrop,
    List.append_nil, readWords_blank hblank]

/-- Where there are no words there are only blanks. -/
theorem allBlank_of_readWords {s : List Char} (h : readWords s = .ok []) : AllBlank s := by
  fun_induction readWords s with
  | case1 => exact .nil
  | case2 c rest hc ih => exact List.forall_mem_cons.2 ⟨hc, ih h⟩
  | case3 => cases h
  | case4 rest text after hstring hquote ih =>
    obtain ⟨words, -, hwords⟩ := map_eq_ok_iff.1 h
    cases hwords
  | case5 c rest hblank hquote word ih =>
    obtain ⟨words, -, hwords⟩ := map_eq_ok_iff.1 h
    cases hwords

/-- A string literal is read up to the quotation mark that closes it. -/
theorem exists_append_of_readString {s text rest : List Char} (h : readString s = .ok (text, rest)) :
    ∃ body, s = body ++ '"' :: rest := by
  fun_induction readString s generalizing text with
  | case1 => cases h
  | case2 =>
    cases h
    exact ⟨[], rfl⟩
  | case3 => cases h
  | case4 c rest' d _ ih =>
    obtain ⟨got, hgot, heq⟩ := map_eq_ok_iff.1 h
    cases heq
    obtain ⟨body, rfl⟩ := ih hgot
    exact ⟨'\\' :: c :: body, rfl⟩
  | case5 => cases h
  | case6 c rest' _ _ _ ih =>
    obtain ⟨got, hgot, heq⟩ := map_eq_ok_iff.1 h
    cases heq
    obtain ⟨body, rfl⟩ := ih hgot
    exact ⟨c :: body, rfl⟩

/-- A text whose last word is a string literal ends with the quotation mark that closes it, and
blanks. -/
theorem exists_append_of_readWords {s : List Char} {words : List Word} {value : String}
    (h : readWords s = .ok words) (hlast : words.getLast? = some (.quoted value)) :
    ∃ before after, s = before ++ '"' :: after ∧ AllBlank after := by
  fun_induction readWords s generalizing words with
  | case1 =>
    cases h
    cases hlast
  | case2 c rest hc ih =>
    obtain ⟨before, after, rfl, hafter⟩ := ih h hlast
    exact ⟨c :: before, after, rfl, hafter⟩
  | case3 => cases h
  | case4 rest text after hstring hquote ih =>
    obtain ⟨more, hmore, rfl⟩ := map_eq_ok_iff.1 h
    obtain ⟨body, rfl⟩ := exists_append_of_readString hstring
    cases more with
    | nil => exact ⟨'"' :: body, after, rfl, allBlank_of_readWords hmore⟩
    | cons word more =>
      rw [List.getLast?_cons_cons] at hlast
      obtain ⟨before, blanks, rfl, hblanks⟩ := ih hmore hlast
      exact ⟨'"' :: (body ++ '"' :: before), blanks, by simp, hblanks⟩
  | case5 c rest hblank hquote word =>
    rename_i ih
    obtain ⟨more, hmore, rfl⟩ := map_eq_ok_iff.1 h
    cases more with
    | nil => cases hlast
    | cons next more =>
      rw [List.getLast?_cons_cons] at hlast
      obtain ⟨before, blanks, hrest, hblanks⟩ := ih hmore hlast
      refine ⟨c :: (rest.takeWhile (!isBlank ·) ++ before), blanks, ?_, hblanks⟩
      rw [List.cons_append, List.append_assoc, ← hrest, List.takeWhile_append_dropWhile]

end Docweave
