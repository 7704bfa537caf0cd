import Docweave.Proofs.Tree.Escaping
import Docweave.Xml.Reference

set_option autoImplicit false

/-! # Escaped text as it is read

The reader meets escaped text as a row of pieces, one for each character that was escaped, so that
reading it gives the characters back. What becomes of them then is a matter of line ends and tabs:
those that escaping leaves as they are count as written literally. `characterDataOf_textPiece` and
`valueOf_valuePiece` say what is read in place of a text and of a value, and
`lineEndsRead_eq_self_iff` which texts come back unchanged. -/

namespace Docweave

open Xml

/-! ## Pieces -/

/-- The reader takes the written characters for one piece, whatever follows. -/
def IsReadAs (written : List Char) (piece : Xml.Piece) : Prop :=
  ∀ after rest, pieces after (written ++ rest) = (pieces after rest).map (piece :: ·)

theorem isReadAs_literal {c : Char} (hc : c ≠ '&') : IsReadAs [c] (.literal c) := by
  intro after rest
  rw [List.singleton_append, pieces, if_neg hc]

theorem isReadAs_reference {body : List Char} {c : Char}
    (h : ∀ rest, readReference? (body ++ rest) = some (.char c, rest)) :
    IsReadAs ('&' :: body) (.referred c) := by
  intro after rest
  rw [List.cons_append, pieces, if_pos rfl]
  split
  · next heq =>
    rw [h rest] at heq
    cases heq
    rfl
  · next heq =>
    rw [h rest] at heq
    cases heq
  · next heq =>
    rw [h rest] at heq
    cases heq

/-- Text that is written character by character is read piece by piece. -/
theorem pieces_flatMap {write : Char → List Char} {piece : Char → Xml.Piece}
    (h : ∀ c, IsReadAs (write c) (piece c)) (after s : List Char) :
    pieces after (s.flatMap write) = .ok (s.map piece) := by
  induction s with
  | nil => rw [List.flatMap_nil, pieces, List.map_nil]
  | cons c rest ih =>
    rw [List.flatMap_cons, h c, ih]
    rfl

theorem isReadAs_amp : IsReadAs ['&', 'a', 'm', 'p', ';'] (.referred '&') :=
  isReadAs_reference fun _ => rfl

theorem isReadAs_lt : IsReadAs ['&', 'l', 't', ';'] (.referred '<') :=
  isReadAs_reference fun _ => rfl

theorem isReadAs_gt : IsReadAs ['&', 'g', 't', ';'] (.referred '>') :=
  isReadAs_reference fun _ => rfl

theorem isReadAs_quot : IsReadAs ['&', 'q', 'u', 'o', 't', ';'] (.referred '"') :=
  isReadAs_reference fun _ => rfl

theorem isReadAs_lineFeed : IsReadAs ['&', '#', '1', '0', ';'] (.referred '\n') :=
  isReadAs_reference fun _ => rfl

/-- Character data writes the character as a reference. -/
def isReferredInText (c : Char) : Bool := c == '&' || c == '<' || c == '>'

/-- How the reader meets a character of escaped character data. -/
def textPiece (c : Char) : Xml.Piece := if isReferredInText c then .referred c else .literal c

/-- How the reader meets a character of an escaped value. -/
def valuePiece (c : Char) : Xml.Piece :=
  if isReferredInText c || c == '"' || c == '\n' then .referred c else .literal c

theorem isReadAs_escapeTextChar (c : Char) : IsReadAs (escapeTextChar c) (textPiece c) := by
  unfold escapeTextChar
  split
  · exact isReadAs_amp
  · exact isReadAs_lt
  · exact isReadAs_gt
  · next hamp hlt hgt =>
    have hplain : isReferredInText c = false := by
      simpa [isReferredInText] using ⟨⟨hamp, hlt⟩, hgt⟩
    rw [textPiece, hplain]
    exact isReadAs_literal hamp

theorem isReadAs_escapeValueChar (c : Char) : IsReadAs (escapeValueChar c) (valuePiece c) := by
  unfold escapeValueChar
  split
  · exact isReadAs_amp
  · exact isReadAs_lt
  · exact isReadAs_gt
  · exact isReadAs_quot
  · exact isReadAs_lineFeed
  · next hamp hlt hgt hquot hfeed =>
    have hplain : (isReferredInText c || c == '"' || c == '\n') = false := by
      simpa [isReferredInText] using ⟨⟨⟨⟨hamp, hlt⟩, hgt⟩, hquot⟩, hfeed⟩
    rw [valuePiece, hplain]
    exact isReadAs_literal hamp

theorem pieces_escapeText (after s : List Char) :
    pieces after (escapeText s) = .ok (s.map textPiece) :=
  pieces_flatMap isReadAs_escapeTextChar after s

theorem pieces_escapeValue (after s : List Char) :
    pieces after (escapeValue s) = .ok (s.map valuePiece) :=
  pieces_flatMap isReadAs_escapeValueChar after s

/-! ## Which characters are written -/

/-- Every character may stand in a document. -/
def IsAllowed (s : List Char) : Prop := ∀ c ∈ s, isXmlChar c = true

instance : DecidablePred IsAllowed := fun s =>
  decidable_of_iff (s.all isXmlChar = true) List.all_eq_true

theorem IsAllowed.nil : IsAllowed [] := fun _ hc => absurd hc List.not_mem_nil

theorem IsAllowed.cons {c : Char} {s : List Char} (hc : isXmlChar c = true) (hs : IsAllowed s) :
    IsAllowed (c :: s) := List.forall_mem_cons.2 ⟨hc, hs⟩

theorem IsAllowed.of_cons {c : Char} {s : List Char} (h : IsAllowed (c :: s)) : IsAllowed s :=
  (List.forall_mem_cons.1 h).2

theorem isXmlChar_of_mem_references {r : Reference} (hr : r ∈ references) {d : Char}
    (hd : d ∈ r.written) : isXmlChar d = true := by
  have hall : (references.all fun r => r.written.all isXmlChar) = true := by decide
  exact List.all_eq_true.1 (List.all_eq_true.1 hall r hr) d hd

theorem mem_escapeText {s : List Char} {d : Char} (h : d ∈ escapeText s) :
    d ≠ '<' ∧ d ≠ '>' ∧ (d ∈ s ∨ isXmlChar d) := by
  have hunmarked := isEscaping_escapeText.unmarked s
  refine ⟨fun hlt => hunmarked '<' (by decide) (hlt ▸ h),
    fun hgt => hunmarked '>' (by decide) (hgt ▸ h), ?_⟩
  rcases mem_flatMap_written isWrittenAs_escapeTextChar h with ⟨hs, -⟩ | ⟨r, hr, hd⟩
  · exact .inl hs
  · exact .inr (isXmlChar_of_mem_references hr hd)

theorem mem_escapeValue {s : List Char} {d : Char} (h : d ∈ escapeValue s) :
    d ≠ '"' ∧ d ≠ '<' ∧ (d ∈ s ∨ isXmlChar d) := by
  have hunmarked := isEscaping_escapeValue.unmarked s
  refine ⟨fun hquot => hunmarked '"' (by decide) (hquot ▸ h),
    fun hlt => hunmarked '<' (by decide) (hlt ▸ h), ?_⟩
  rcases mem_flatMap_written isWrittenAs_escapeValueChar h with ⟨hs, -⟩ | ⟨r, hr, hd⟩
  · exact .inl hs
  · exact .inr (isXmlChar_of_mem_references hr hd)

theorem isAllowed_escapeText {s : List Char} (h : IsAllowed s) : IsAllowed (escapeText s) :=
  fun c hc => (mem_escapeText hc).2.2.elim (h c) id

theorem isAllowed_escapeValue {s : List Char} (h : IsAllowed s) : IsAllowed (escapeValue s) :=
  fun c hc => (mem_escapeValue hc).2.2.elim (h c) id

/-! ## Values -/

/-- The character that is read in place of one in a value: tabs and carriage returns are written
literally, which makes them spaces. -/
def blankRead (c : Char) : Char := if c = '\t' ∨ c = '\r' then ' ' else c

theorem valueOf_literal {c : Char} {rest : List Xml.Piece}
    (h : rest.head? ≠ some (.literal '\n')) :
    valueOf (.literal c :: rest) =
      (if c = '\n' ∨ c = '\r' ∨ c = '\t' then ' ' else c) :: valueOf rest := by
  rw [valueOf]
  · simp only [Bool.or_eq_true, decide_eq_true_eq, or_assoc]
  · intro tail heq _
    exact h (by rw [heq]; rfl)

theorem valueOf_valuePiece (s : List Char) : valueOf (s.map valuePiece) = s.map blankRead := by
  induction s with
  | nil => rfl
  | cons c rest ih =>
    rw [List.map_cons, List.map_cons, ← ih]
    by_cases hc : (isReferredInText c || c == '"' || c == '\n') = true
    · have hkept : blankRead c = c := by
        refine if_neg ?_
        rintro (rfl | rfl) <;> exact absurd hc (by decide)
      rw [valuePiece, if_pos hc, valueOf, hkept]
    -- no line feed is written literally, so that a carriage return stands alone
    · have hnext : (rest.map valuePiece).head? ≠ some (.literal '\n') := by
        rw [List.head?_map]
        intro h
        obtain ⟨d, -, hd⟩ := Option.map_eq_some_iff.1 h
        unfold valuePiece at hd
        split at hd
        · cases hd
        · next hplain =>
          cases hd
          exact hplain (by decide)
      have hfeed : c ≠ '\n' := fun h => hc (by rw [h]; decide)
      rw [valuePiece, if_neg hc, valueOf_literal hnext, blankRead]
      simp only [hfeed, false_or, or_comm]

/-! ## Character data -/

/-- What is read in place of character data. A carriage return is written literally, which makes it,
alone or with the line feed after it, a line feed; but it stays where a character that is written as
a reference follows, and at the end where one precedes. -/
def lineEndsRead (afterReference : Bool) : List Char → List Char
  | [] => []
  | ['\r'] => if afterReference then ['\r'] else ['\n']
  | '\r' :: '\n' :: rest => '\n' :: lineEndsRead false rest
  | '\r' :: c :: rest => (if isReferredInText c then '\r' else '\n') :: lineEndsRead false (c :: rest)
  | c :: rest => c :: lineEndsRead (isReferredInText c) rest

theorem lineEndsRead_cons {c : Char} (hc : c ≠ '\r') (afterReference : Bool) (rest : List Char) :
    lineEndsRead afterReference (c :: rest) = c :: lineEndsRead (isReferredInText c) rest := by
  rw [lineEndsRead]
  · exact fun h _ => hc h
  · exact fun _ h _ => hc h
  · exact fun _ _ h _ => hc h

theorem lineEndsRead_return_cons {c : Char} (hc : c ≠ '\n') (afterReference : Bool)
    (rest : List Char) :
    lineEndsRead afterReference ('\r' :: c :: rest) =
      (if isReferredInText c then '\r' else '\n') :: lineEndsRead false (c :: rest) := by
  rw [lineEndsRead]
  exact hc

theorem characterDataOf_free {written : List Char} (h : written.head? ≠ some '\r') (c : Char)
    (rest : List Xml.Piece) :
    characterDataOf written false (.literal c :: rest) =
      characterDataOf ((if rest.isEmpty && c == '\r' then '\n' else c) :: written) false rest := by
  rw [characterDataOf, if_neg Bool.false_ne_true]
  split
  · exact absurd rfl h
  · rfl

theorem characterDataOf_held (before : List Char) (c : Char) (rest : List Xml.Piece) :
    characterDataOf ('\r' :: before) false (.literal c :: rest) =
      if rest.isEmpty && c == '\r' then characterDataOf ('\n' :: '\n' :: before) false rest
      else if c = '\n' then characterDataOf ('\n' :: before) false rest
      else characterDataOf (c :: '\n' :: before) false rest := rfl

/-- A carriage return that something follows fares the same after a reference. -/
theorem lineEndsRead_return_irrel (a b : Bool) (c : Char) (rest : List Char) :
    lineEndsRead a ('\r' :: c :: rest) = lineEndsRead b ('\r' :: c :: rest) := by
  by_cases hc : c = '\n'
  · subst hc
    rfl
  · rw [lineEndsRead_return_cons hc, lineEndsRead_return_cons hc]

/-- What the reader makes of a text that was escaped, after the characters that it has written. The
second part is about a carriage return that it holds back. -/
structure LineEndsAreRead (s : List Char) : Prop where
  free : ∀ written afterReference, (afterReference = true ∨ written.head? ≠ some '\r') →
    characterDataOf written afterReference (s.map textPiece) =
      written.reverse ++ lineEndsRead afterReference s
  held : ∀ before, characterDataOf ('\r' :: before) false (s.map textPiece) =
    before.reverse ++ lineEndsRead true ('\r' :: s)

theorem lineEndsAreRead_nil : LineEndsAreRead [] where
  free written afterReference _ := by simp [characterDataOf, lineEndsRead]
  held before := by simp [characterDataOf, lineEndsRead]

theorem lineEndsAreRead_referred {c : Char} {rest : List Char} (hc : isReferredInText c = true)
    (h : LineEndsAreRead rest) : LineEndsAreRead (c :: rest) := by
  have hreturn : c ≠ '\r' := by rintro rfl; exact absurd hc (by decide)
  have hfeed : c ≠ '\n' := by rintro rfl; exact absurd hc (by decide)
  have hpiece : (c :: rest).map textPiece = .referred c :: rest.map textPiece := by
    rw [List.map_cons, textPiece, if_pos hc]
  constructor
  · intro written afterReference _
    rw [hpiece, characterDataOf, h.free _ true (.inl rfl), lineEndsRead_cons hreturn, hc]
    simp
  · intro before
    rw [hpiece, characterDataOf, h.free _ true (.inl rfl), lineEndsRead_return_cons hfeed, if_pos hc,
      lineEndsRead_cons hreturn, hc]
    simp

theorem lineEndsAreRead_return {rest : List Char} (h : LineEndsAreRead rest) :
    LineEndsAreRead ('\r' :: rest) := by
  have hpiece : ('\r' :: rest).map textPiece = .literal '\r' :: rest.map textPiece := rfl
  constructor
  · intro written afterReference hfree
    cases afterReference with
    | true => rw [hpiece, characterDataOf, if_pos rfl, h.held]
    | false =>
      rw [hpiece, characterDataOf_free (hfree.resolve_left Bool.false_ne_true)]
      cases rest with
      | nil => simp [characterDataOf, lineEndsRead]
      | cons d rest =>
        rw [List.map_cons, List.isEmpty_cons, Bool.false_and, if_neg Bool.false_ne_true,
          ← List.map_cons, h.held, lineEndsRead_return_irrel true false]
  · intro before
    rw [hpiece, characterDataOf_held]
    cases rest with
    | nil => simp [characterDataOf, lineEndsRead, isReferredInText]
    -- the one that is held back becomes a line feed, and this one is held back in its place
    | cons d rest =>
      have hstays : lineEndsRead true ('\r' :: '\r' :: d :: rest) =
          '\n' :: lineEndsRead true ('\r' :: d :: rest) := by
        rw [lineEndsRead_return_irrel true false d]
        rfl
      rw [List.map_cons, List.isEmpty_cons, Bool.false_and, if_neg Bool.false_ne_true,
        if_neg (by decide), ← List.map_cons, h.held, hstays]
      simp

theorem lineEndsAreRead_literal {c : Char} {rest : List Char} (hc : isReferredInText c = false)
    (hreturn : c ≠ '\r') (h : LineEndsAreRead rest) : LineEndsAreRead (c :: rest) := by
  have hpiece : (c :: rest).map textPiece = .literal c :: rest.map textPiece := by
    rw [List.map_cons, textPiece, hc]
    rfl
  have hnotFinal : ((rest.map textPiece).isEmpty && c == '\r') = false := by simp [hreturn]
  have hwritten : ∀ written : List Char, (c :: written).head? ≠ some '\r' := by simpa using hreturn
  constructor
  · intro written afterReference hfree
    cases afterReference with
    | true =>
      rw [hpiece, characterDataOf, if_pos rfl, h.free _ false (.inr (hwritten _)),
        lineEndsRead_cons hreturn, hc]
      simp
    | false =>
      rw [hpiece, characterDataOf_free (hfree.resolve_left Bool.false_ne_true), hnotFinal,
        if_neg Bool.false_ne_true, h.free _ false (.inr (hwritten _)), lineEndsRead_cons hreturn, hc]
      simp
  · intro before
    rw [hpiece, characterDataOf_held, hnotFinal, if_neg Bool.false_ne_true]
    split
    · next hfeed =>
      subst hfeed
      rw [h.free _ false (.inr (by simp)), lineEndsRead]
      simp
    · next hfeed =>
      rw [h.free _ false (.inr (hwritten _)), lineEndsRead_return_cons hfeed, hc,
        lineEndsRead_cons hreturn, hc]
      simp

theorem lineEndsAreRead (s : List Char) : LineEndsAreRead s := by
  induction s with
  | nil => exact lineEndsAreRead_nil
  | cons c rest ih =>
    by_cases hc : isReferredInText c = true
    · exact lineEndsAreRead_referred hc ih
    · by_cases hreturn : c = '\r'
      · subst hreturn
        exact lineEndsAreRead_return ih
      · exact lineEndsAreRead_literal (Bool.not_eq_true _ ▸ hc) hreturn ih

theorem characterDataOf_textPiece (s : List Char) :
    characterDataOf [] false (s.map textPiece) = lineEndsRead false s :=
  (lineEndsAreRead s).free [] false (.inr (by simp))

/-! ## What comes back unchanged -/

/-- A carriage return is left as it is before the text `after`. -/
def StaysBefore (afterReference : Bool) : List Char → Prop
  | [] => afterReference = true
  | c :: _ => isReferredInText c = true

/-- Each carriage return of a text stands where the reader leaves it: just before a character that is
written as a reference, or at the end and just after one. -/
def ReturnsAreKept (afterReference : Bool) (s : List Char) : Prop :=
  ∀ before after, s = before ++ '\r' :: after →
    StaysBefore ((before.getLast?.map isReferredInText).getD afterReference) after

theorem returnsAreKept_nil (afterReference : Bool) : ReturnsAreKept afterReference [] := by
  intro before after h
  exact absurd h (by simp)

theorem returnsAreKept_cons_iff {afterReference : Bool} {c : Char} {rest : List Char} :
    ReturnsAreKept afterReference (c :: rest) ↔
      (c = '\r' → StaysBefore afterReference rest) ∧ ReturnsAreKept (isReferredInText c) rest := by
  have hlast : ∀ before : List Char,
      ((c :: before).getLast?.map isReferredInText).getD afterReference =
        (before.getLast?.map isReferredInText).getD (isReferredInText c) := by
    intro before
    rw [List.getLast?_cons]
    cases before.getLast? <;> rfl
  constructor
  · intro h
    refine ⟨fun hc => h [] rest (by rw [hc]; rfl), fun before after heq => ?_⟩
    rw [← hlast]
    exact h (c :: before) after (by rw [heq]; rfl)
  · rintro ⟨hhead, hrest⟩ before after heq
    cases before with
    | nil =>
      cases heq
      exact hhead rfl
    | cons d before =>
      cases heq
      rw [hlast]
      exact hrest before after rfl

theorem lineEndsRead_eq_self_iff (afterReference : Bool) (s : List Char) :
    lineEndsRead afterReference s = s ↔ ReturnsAreKept afterReference s := by
  induction s generalizing afterReference with
  | nil => exact iff_of_true rfl (returnsAreKept_nil _)
  | cons c rest ih =>
    rw [returnsAreKept_cons_iff, ← ih]
    by_cases hc : c = '\r'
    · subst hc
      cases rest with
      | nil => cases afterReference <;> simp [lineEndsRead, StaysBefore]
      | cons d rest =>
        by_cases hd : isReferredInText d = true
        · have hfeed : d ≠ '\n' := by rintro rfl; exact absurd hd (by decide)
          rw [lineEndsRead_return_cons hfeed, if_pos hd, List.cons.injEq]
          exact and_congr_left fun _ => iff_of_true rfl fun _ => hd
        · have hhead : (lineEndsRead afterReference ('\r' :: d :: rest)).head? = some '\n' := by
            by_cases hfeed : d = '\n'
            · rw [hfeed, lineEndsRead]
              rfl
            · rw [lineEndsRead_return_cons hfeed, if_neg hd]
              rfl
          refine iff_of_false (fun h => ?_) fun h => hd (h.1 rfl)
          rw [h, List.head?_cons] at hhead
          exact absurd hhead (by decide)
    · rw [lineEndsRead_cons hc, List.cons.injEq]
      exact ⟨fun h => ⟨fun h' => absurd h' hc, h.2⟩, fun h => ⟨rfl, h.2⟩⟩

theorem map_blankRead_eq_self_iff {s : List Char} :
    s.map blankRead = s ↔ '\t' ∉ s ∧ '\r' ∉ s := by
  induction s with
  | nil => simp
  | cons c rest ih =>
    rw [List.map_cons, List.cons.injEq, ih, List.mem_cons, List.mem_cons]
    by_cases hc : c = '\t' ∨ c = '\r'
    · have hchanged : blankRead c ≠ c := by
        rcases hc with rfl | rfl <;> decide
      exact iff_of_false (fun h => hchanged h.1) fun h =>
        hc.elim (fun ht => h.1 (.inl ht.symm)) fun hr => h.2 (.inl hr.symm)
    · have hkept : blankRead c = c := if_neg hc
      rw [not_or] at hc
      simp [hkept, Ne.symm hc.1, Ne.symm hc.2]

end Docweave
