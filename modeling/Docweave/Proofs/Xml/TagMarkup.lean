import Docweave.Proofs.Tree.Reread
import Docweave.Proofs.Xml.LocalName
import Docweave.Xml.Document

set_option autoImplicit false

/-! # Tags are read again

A start tag that was written is read as a tag with the same name, and with the same attributes but for
the tabs and carriage returns in their values: `readStartTag_markup` and `resolve_tagRead` follow the
reader over it, attribute by attribute. -/

namespace Docweave

open Xml Text

/-! ## Writable trees -/

/-- The attribute can be written in a start tag: its name has no prefix and declares no namespace, and
its value is made of characters of documents. -/
structure Attribute.IsWritable (a : Attribute) : Prop where
  name : IsLocalName a.name.toList
  noDeclaration : a.name ≠ "xmlns"
  value : IsAllowed a.value.toList

instance : DecidablePred Attribute.IsWritable := fun a =>
  decidable_of_iff (IsLocalName a.name.toList ∧ a.name ≠ "xmlns" ∧ IsAllowed a.value.toList)
    ⟨fun h => ⟨h.1, h.2.1, h.2.2⟩, fun h => ⟨h.name, h.noDeclaration, h.value⟩⟩

/-- What stands at the element itself can be written: its name is in no namespace, no attribute is given
twice, and text and tail are made of characters of documents. -/
structure Element.IsWritable (e : Element) : Prop where
  plain : e.name = .plain e.name.localPart
  name : IsLocalName e.name.localPart.toList
  attributes : ∀ a ∈ e.attributes, a.IsWritable
  distinct : (e.attributes.map (·.name)).Nodup
  text : IsAllowed (e.text.getD "").toList
  tail : IsAllowed (e.tail.getD "").toList

instance : DecidablePred Element.IsWritable := fun e =>
  decidable_of_iff
    (e.name = .plain e.name.localPart ∧ IsLocalName e.name.localPart.toList ∧
      (∀ a ∈ e.attributes, a.IsWritable) ∧ (e.attributes.map (·.name)).Nodup ∧
      IsAllowed (e.text.getD "").toList ∧ IsAllowed (e.tail.getD "").toList)
    ⟨fun ⟨hplain, hname, hattributes, hdistinct, htext, htail⟩ =>
      ⟨hplain, hname, hattributes, hdistinct, htext, htail⟩,
    fun h => ⟨h.plain, h.name, h.attributes, h.distinct, h.text, h.tail⟩⟩

theorem Element.IsWritable.display {e : Element} (he : e.IsWritable) :
    e.name.display = e.name.localPart := by
  rw [he.plain]
  rfl

/-! ## Attributes -/

theorem skipSpaces_cons {c : Char} (hc : isSpace c = false) (rest : List Char) :
    skipSpaces (c :: rest) = c :: rest := by
  rw [skipSpaces, List.dropWhile_cons, hc]
  rfl

theorem isSpace_of_isNameStart {c : Char} (h : isNameStart c = true) : isSpace c = false := by
  rw [Bool.eq_false_iff]
  intro hspace
  simp only [isSpace, Bool.or_eq_true, beq_iff_eq] at hspace
  rcases hspace with ((rfl | rfl) | rfl) | rfl <;> exact absurd h (by decide)

/-- A value without quotation marks and tags is read up to the quotation mark that ends it. -/
theorem readValue_append {value : List Char} (hvalue : IsAllowed value)
    (hquote : '"' ∉ value) (htag : '<' ∉ value) (rest : List Char) :
    readValue ('"' :: (value ++ '"' :: rest)) = .ok (value, rest) := by
  have hinside : ∀ c ∈ value, (!(c == '"' || c == '<')) = true := by
    intro c hc
    have hq : c ≠ '"' := fun h => hquote (h ▸ hc)
    have ht : c ≠ '<' := fun h => htag (h ▸ hc)
    simp [hq, ht]
  have hallowed : (value ++ []).dropWhile isXmlChar = [] := List.dropWhile_append_of_pos hvalue
  rw [List.append_nil] at hallowed
  rw [readValue, if_pos (by decide)]
  simp only [List.takeWhile_append_of_pos hinside, List.dropWhile_append_of_pos hinside]
  simp [hallowed, expectChar, Except.map]

namespace Attribute

theorem markup_append (a : Attribute) (rest : List Char) :
    a.markup ++ rest =
      ' ' :: (a.name.toList ++ '=' :: '"' :: (escapeValue a.value.toList ++ '"' :: rest)) := by
  simp [markup]

/-- What the reader cuts out of a written attribute. -/
def rawRead (a : Attribute) (rest : List Char) : RawAttribute :=
  ⟨⟨"", a.name⟩, escapeValue a.value.toList, (a.markup ++ rest).tail, '"' :: rest⟩

theorem readAttribute_markup {a : Attribute} (ha : a.IsWritable) (rest : List Char) :
    readAttribute (a.markup ++ rest).tail = .ok (a.rawRead rest, rest) := by
  have hquote : '"' ∉ escapeValue a.value.toList := fun h => (mem_escapeValue h).1 rfl
  have htag : '<' ∉ escapeValue a.value.toList := fun h => (mem_escapeValue h).2.1 rfl
  have hvalue := readValue_append (isAllowed_escapeValue ha.value) hquote htag rest
  have hname := readQName_append ha.name
    (endsName_cons (by decide : isNameChar '=' = false)
      ('"' :: (escapeValue a.value.toList ++ '"' :: rest)))
  have heq : skipSpaces ('=' :: '"' :: (escapeValue a.value.toList ++ '"' :: rest)) = _ :=
    skipSpaces_cons (by decide) _
  have hquoted : skipSpaces ('"' :: (escapeValue a.value.toList ++ '"' :: rest)) = _ :=
    skipSpaces_cons (by decide) _
  rw [rawRead, markup_append, List.tail_cons, readAttribute, hname]
  simp only [bind, Except.bind, heq, expectChar, if_true, hquoted, hvalue]
  simp [pure, Except.pure]

/-- The attribute of a tag that the reader makes of a written one. -/
def tagRead (a : Attribute) (rest : List Char) : TagAttribute :=
  ⟨⟨"", a.name⟩, a.reread.value, (a.markup ++ rest).tail⟩

/-- The attribute of an element that the reader makes of a written one. -/
def nodeRead (a : Attribute) : NodeAttribute := ⟨⟨none, a.name⟩, a.reread.value⟩

theorem add_rawRead {a : Attribute} (ha : a.IsWritable) (tag : StartTag) (rest : List Char) :
    tag.add (a.rawRead rest) =
      .ok { tag with attributes := tag.attributes ++ [a.tagRead rest] } := by
  have hvalue : normalizeValue (a.rawRead rest).after (a.rawRead rest).raw = .ok a.reread.value := by
    rw [normalizeValue, rawRead, pieces_escapeValue, Except.map, valueOf_valuePiece]
    rfl
  have hlead : (a.rawRead rest).name.lead ≠ "xmlns" := show ("" : String) ≠ "xmlns" by decide
  rw [StartTag.add, hvalue]
  simp only [bind, Except.bind, if_neg hlead]
  rw [if_neg (show ¬ (a.rawRead rest).name.base = "xmlns" from ha.noDeclaration)]
  rfl

end Attribute

/-- The attributes of a tag that the reader makes of written ones with `rest` behind them. -/
def tagAttributes (rest : List Char) : List Attribute → List TagAttribute
  | [] => []
  | a :: others => a.tagRead (others.flatMap Attribute.markup ++ rest) :: tagAttributes rest others

theorem readTagRest_space {tag tagged : StartTag} {a : RawAttribute} {c : Char}
    {more rest : List Char} (hc : isNameStart c = true)
    (hread : readAttribute (c :: more) = .ok (a, rest)) (hadd : tag.add a = .ok tagged) :
    readTagRest tag (' ' :: c :: more) = readTagRest tagged rest := by
  have hskip : skipSpaces (' ' :: c :: more) = c :: more := by
    rw [skipSpaces, List.dropWhile_cons, if_pos (by decide)]
    exact skipSpaces_cons (isSpace_of_isNameStart hc) more
  -- a name goes on with the tag, so that neither end of a tag is met
  have hslash : c ≠ '/' := ne_of_isNameStart hc (by decide)
  have hend : c ≠ '>' := ne_of_isNameStart hc (by decide)
  rw [readTagRest, List.isEmpty_cons, if_neg Bool.false_ne_true]
  simp only
  split
  · next heq => exact absurd (hskip ▸ heq) (List.cons_ne_nil _ _)
  · next heq => exact absurd (List.cons.inj (hskip ▸ heq)).1 hslash
  · next heq => exact absurd (List.cons.inj (hskip ▸ heq)).1 hend
  · next heq =>
    obtain ⟨rfl, rfl⟩ := List.cons.inj (hskip ▸ heq)
    rw [if_pos (by rfl)]
    split
    · next hfail => rw [hread] at hfail; cases hfail
    · next hsame =>
      rw [hread] at hsame
      cases hsame
      rw [hadd]

theorem readTagRest_attribute {a : Attribute} (ha : a.IsWritable) (tag : StartTag)
    (rest : List Char) :
    readTagRest tag (a.markup ++ rest) =
      readTagRest { tag with attributes := tag.attributes ++ [a.tagRead rest] } rest := by
  have hread := Attribute.readAttribute_markup ha rest
  obtain ⟨c, more, hname, hc⟩ := ha.name.exists_cons
  rw [a.markup_append, hname, List.tail_cons, List.cons_append] at hread
  rw [a.markup_append, hname, List.cons_append]
  exact readTagRest_space hc hread (Attribute.add_rawRead ha tag rest)

theorem readTagRest_attributes {attributes : List Attribute}
    (h : ∀ a ∈ attributes, a.IsWritable) (tag : StartTag) (rest : List Char) :
    readTagRest tag (attributes.flatMap Attribute.markup ++ rest) =
      readTagRest { tag with attributes := tag.attributes ++ tagAttributes rest attributes } rest := by
  induction attributes generalizing tag with
  | nil => simp [tagAttributes]
  | cons a others ih =>
    obtain ⟨ha, hothers⟩ := List.forall_mem_cons.1 h
    rw [List.flatMap_cons, List.append_assoc, readTagRest_attribute ha, ih hothers, tagAttributes]
    simp

theorem readTagRest_opens (tag : StartTag) (rest : List Char) :
    readTagRest tag ('>' :: rest) = .ok (some tag, rest) := by
  have hskip : skipSpaces ('>' :: rest) = '>' :: rest := skipSpaces_cons (by decide) rest
  rw [readTagRest, List.isEmpty_cons, if_neg Bool.false_ne_true]
  simp only
  split
  · next heq => simp [hskip] at heq
  · next heq => simp [hskip] at heq
  · next heq =>
    rw [hskip] at heq
    cases heq
    rfl
  · next hend heq =>
    rw [hskip] at heq
    exact (hend (List.cons.inj heq).1.symm).elim

theorem readTagRest_closes (tag : StartTag) (rest : List Char) :
    readTagRest tag (' ' :: '/' :: '>' :: rest) = .ok (some { tag with closed := true }, rest) := by
  have hskip : skipSpaces (' ' :: '/' :: '>' :: rest) = '/' :: '>' :: rest := by
    rw [skipSpaces, List.dropWhile_cons, if_pos (by decide)]
    exact skipSpaces_cons (by decide) _
  rw [readTagRest, List.isEmpty_cons, if_neg Bool.false_ne_true]
  simp only
  split
  · next heq => simp [hskip] at heq
  · next heq =>
    rw [hskip] at heq
    cases heq
    rfl
  · next heq => simp [hskip] at heq
  · next hslash _ heq =>
    rw [hskip] at heq
    exact (hslash (List.cons.inj heq).1.symm).elim

/-- What the reader makes of a start tag that is followed by `rest`. -/
def Element.tagRead (e : Element) (tagEnd : TagEnd) (rest : List Char) : StartTag :=
  ⟨⟨"", e.name.localPart⟩, (e.startTag tagEnd ++ rest).tail, [],
    tagAttributes (tagEnd.markup ++ rest) e.attributes, tagEnd == .closes⟩

theorem readTagRest_tagEnd (tagEnd : TagEnd) (tag : StartTag) (hopen : tag.closed = false)
    (rest : List Char) :
    readTagRest tag (tagEnd.markup ++ rest) =
      .ok (some { tag with closed := tagEnd == .closes }, rest) := by
  cases tagEnd with
  | opens =>
    have hsame : { tag with closed := TagEnd.opens == .closes } = tag := by
      cases tag
      cases hopen
      rfl
    rw [hsame]
    exact readTagRest_opens tag rest
  | closes => exact readTagRest_closes tag rest

namespace Element

theorem startTag_append (e : Element) (tagEnd : TagEnd) (rest : List Char) :
    e.startTag tagEnd ++ rest =
      '<' :: (e.name.display.toList ++
        (e.attributes.flatMap Attribute.markup ++ (tagEnd.markup ++ rest))) := by
  simp [startTag]

/-- After the name of a written start tag comes no character that could belong to it. -/
theorem endsName_attributes (attributes : List Attribute) (tagEnd : TagEnd) (rest : List Char) :
    EndsName (attributes.flatMap Attribute.markup ++ (tagEnd.markup ++ rest)) := by
  cases attributes with
  | nil => cases tagEnd <;> exact endsName_cons (by decide) _
  | cons a others =>
    rw [List.flatMap_cons, List.append_assoc, Attribute.markup_append]
    exact endsName_cons (by decide) _

theorem readStartTag_markup {e : Element} (he : e.IsWritable) (tagEnd : TagEnd)
    (rest : List Char) :
    readStartTag (e.startTag tagEnd ++ rest).tail = .ok (some (e.tagRead tagEnd rest), rest) := by
  have hname := readQName_append he.name (endsName_attributes e.attributes tagEnd rest)
  have hlead : ("" : String) ≠ "xmlns" := by decide
  rw [readStartTag, tagRead, startTag_append, List.tail_cons, he.display, hname]
  simp only [bind, Except.bind, if_neg hlead]
  rw [readTagRest_attributes he.attributes, readTagRest_tagEnd tagEnd _ rfl, String.ofList_toList]
  rfl

/-- What the reader makes of the start tag of an element that is in no scope of declarations. -/
def headRead (e : Element) : ElementHead :=
  ⟨⟨none, e.name.localPart⟩, e.attributes.map Attribute.nodeRead, []⟩

end Element

theorem resolveAttributes_tagAttributes {attributes : List Attribute} {resolved : List NodeAttribute}
    (hdistinct : (attributes.map (·.name)).Nodup)
    (hnew : ∀ a ∈ attributes, ∀ r ∈ resolved, r.name ≠ ⟨none, a.name⟩) (rest : List Char) :
    resolveAttributes [] resolved (tagAttributes rest attributes) =
      .ok (resolved ++ attributes.map Attribute.nodeRead) := by
  induction attributes generalizing resolved with
  | nil => rw [tagAttributes, resolveAttributes, List.map_nil, List.append_nil]
  | cons a others ih =>
    obtain ⟨hhead, hothers⟩ := List.nodup_cons.1 hdistinct
    obtain ⟨hnewHead, hnewOthers⟩ := List.forall_mem_cons.1 hnew
    have huri : attributeUri [] (a.tagRead (others.flatMap Attribute.markup ++ rest)) = .ok none := rfl
    have hfresh : resolved.any (·.name == (⟨none, a.name⟩ : ExpandedName)) = false := by
      simpa using hnewHead
    -- the names that follow are not that of `a` either
    have hlater : ∀ b ∈ others, ∀ r ∈ resolved ++ [a.nodeRead], r.name ≠ ⟨none, b.name⟩ := by
      intro b hb r hr
      rcases List.mem_append.1 hr with hr | hr
      · exact hnewOthers b hb r hr
      · rw [List.mem_singleton.1 hr]
        intro heq
        have hname : a.name = b.name := congrArg ExpandedName.localPart heq
        exact hhead (List.mem_map.2 ⟨b, hb, hname.symm⟩)
    rw [tagAttributes, resolveAttributes, huri]
    simp only [Attribute.tagRead, hfresh, Bool.false_eq_true, if_false]
    refine (ih hothers hlater).trans ?_
    rw [List.append_assoc, List.map_cons]
    rfl

/-- Where a name follows the angle bracket there is a start tag. -/
theorem readToken_of_isNameStart {c : Char} (hc : isNameStart c = true) (rest : List Char) :
    readToken '<' (c :: rest) =
      (readStartTag (c :: rest)).map fun got => (.start got.1, got.2) := by
  have hbang : c ≠ '!' := ne_of_isNameStart hc (by decide)
  have hquestion : c ≠ '?' := ne_of_isNameStart hc (by decide)
  have hslash : c ≠ '/' := ne_of_isNameStart hc (by decide)
  unfold readToken
  rw [if_pos rfl]
  split
  · next heq => cases heq
  · next heq => exact absurd (List.cons.inj heq).1 hbang
  · next heq => exact absurd (List.cons.inj heq).1 hbang
  · next heq => exact absurd (List.cons.inj heq).1 hbang
  · next heq => exact absurd (List.cons.inj heq).1 hquestion
  · next heq => exact absurd (List.cons.inj heq).1 hslash
  · rfl

namespace Element

theorem resolve_tagRead {e : Element} (he : e.IsWritable) (tagEnd : TagEnd) (rest : List Char) :
    (e.tagRead tagEnd rest).resolve [] = .ok e.headRead := by
  have hattributes : resolveAttributes [] [] (tagAttributes (tagEnd.markup ++ rest) e.attributes) =
      .ok ([] ++ e.attributes.map Attribute.nodeRead) :=
    resolveAttributes_tagAttributes he.distinct (fun _ _ _ h => absurd h List.not_mem_nil) _
  rw [List.nil_append] at hattributes
  rw [StartTag.resolve, tagRead]
  simp only [Scope.inside, List.isEmpty_nil, if_true, hattributes]
  rfl

/-! ## Tokens -/

theorem readToken_startTag {e : Element} (he : e.IsWritable) (tagEnd : TagEnd)
    (rest : List Char) :
    readToken '<' (e.startTag tagEnd ++ rest).tail =
      .ok (.start (some (e.tagRead tagEnd rest)), rest) := by
  have hread := readStartTag_markup he tagEnd rest
  obtain ⟨c, more, hname, hc⟩ := he.name.exists_cons
  rw [startTag_append, he.display, hname, List.tail_cons, List.cons_append] at hread ⊢
  rw [readToken_of_isNameStart hc, hread]
  rfl

theorem endTag_append (e : Element) (rest : List Char) :
    e.endTag ++ rest = '<' :: '/' :: (e.name.display.toList ++ '>' :: rest) := by
  simp [endTag]

theorem readToken_endTag {e : Element} (he : e.IsWritable) (rest : List Char) :
    readToken '<' (e.endTag ++ rest).tail =
      .ok (.stop ⟨"", e.name.localPart⟩ (e.endTag ++ rest), rest) := by
  have hname := readQName_append he.name (endsName_cons (by decide : isNameChar '>' = false) rest)
  have hend : skipSpaces ('>' :: rest) = '>' :: rest := skipSpaces_cons (by decide) rest
  rw [endTag_append, he.display, List.tail_cons]
  simp only [readToken, if_true, readEndTag, bind, Except.bind, hname, hend, expectChar,
    String.ofList_toList]
  rfl

end Element

end Docweave
