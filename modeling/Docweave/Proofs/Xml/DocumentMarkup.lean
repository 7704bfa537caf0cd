import Docweave.Proofs.Xml.TagMarkup
import Docweave.Xml.Element

set_option autoImplicit false

/-! # Markup is read again

The markup of a tree is read token by token in the order in which it was written. `isRead` follows the
reader over one element, whatever stands around it, and `parse_markup` puts this together: from the
markup of a writable tree the reader makes `Element.reread`. -/

namespace Docweave

open Xml Text

/-! ## Content -/

/-- The nodes that the reader makes of an optional text. -/
def textNodes (text : Option String) : List Node :=
  (rereadText text).toList.map Node.text

theorem reverse_textNodes (text : Option String) : (textNodes text).reverse = textNodes text := by
  unfold textNodes
  cases rereadText text <;> rfl

theorem textNodes_of_isEmpty {text : Option String} (h : (text.getD "").isEmpty = true) :
    textNodes text = [] := by
  rw [String.isEmpty_iff] at h
  rw [textNodes, rereadText, h]
  rfl

namespace Element

mutual

/-- The node that the reader makes of an element. -/
def nodeRead : Element → Node
  | e@⟨_, _, text, _, children⟩ => .element e.headRead (textNodes text ++ nodesRead children)

/-- The nodes that the reader makes of elements and their tails. -/
def nodesRead : List Element → List Node
  | [] => []
  | e :: rest => nodeRead e :: (textNodes e.tail ++ nodesRead rest)

end

end Element

theorem readUntil_append {data : List Char} (hdata : IsAllowed data) (htag : '<' ∉ data)
    {rest : List Char} (hrest : ∀ c ∈ rest.head?, c = '<') :
    readUntil ['<'] (data ++ rest) = .ok (data, rest) := by
  induction data with
  | nil =>
    cases rest with
    | nil => rfl
    | cons c rest =>
      obtain rfl : c = '<' := hrest c rfl
      rw [List.nil_append, readUntil, if_pos (by rfl)]
  | cons c data ih =>
    obtain ⟨hc, hothers⟩ := List.forall_mem_cons.1 hdata
    rw [List.mem_cons, not_or] at htag
    have hmark : ['<'].isPrefixOf (c :: (data ++ rest)) = false := by
      rw [List.isPrefixOf, beq_eq_false_iff_ne.2 htag.1, Bool.false_and]
    rw [List.cons_append, readUntil, hmark, if_neg Bool.false_ne_true, if_pos hc, ih hothers htag.2]
    rfl

theorem occursIn_eq_false {part s : List Char} {c : Char} (hpart : c ∈ part) (hs : c ∉ s) :
    occursIn part s = false := by
  induction s with
  | nil =>
    rw [occursIn, List.isEmpty_eq_false_iff]
    exact List.ne_nil_of_mem hpart
  | cons d rest ih =>
    have hprefix : part.isPrefixOf (d :: rest) = false := by
      rw [Bool.eq_false_iff]
      exact fun h => hs ((List.isPrefixOf_iff_prefix.1 h).subset hpart)
    rw [occursIn, hprefix, Bool.false_or]
    exact ih fun h => hs (List.mem_cons_of_mem d h)

/-- A text is read up to the next tag, or to the end. -/
theorem readText_escapeText {s : List Char} (hs : IsAllowed s) {rest : List Char}
    (hrest : ∀ c ∈ rest.head?, c = '<') :
    readText (escapeText s ++ rest) = .ok (.text (.ofList (lineEndsRead false s)), rest) := by
  have htag : '<' ∉ escapeText s := fun h => (mem_escapeText h).1 rfl
  have hend : occursIn [']', ']', '>'] (escapeText s) = false :=
    occursIn_eq_false (by simp) fun h => (mem_escapeText h).2.1 rfl
  rw [readText, readUntil_append (isAllowed_escapeText hs) htag hrest]
  simp only [bind, Except.bind, hend, Bool.false_eq_true, if_false]
  rw [normalizeCharacterData, pieces_escapeText, Except.map, characterDataOf_textPiece]
  rfl

/-- One step of the reader, by the token that comes next. -/
theorem readContent_cons (current : OpenElement) (outer : List OpenElement) (c : Char)
    (rest : List Char) :
    readContent current outer (c :: rest) =
      match readToken c rest with
      | .error e => .error e
      | .ok (.start none, tail) => readContent current outer tail
      | .ok (.start (some tag), tail) =>
        match tag.resolve current.head.scope with
        | .error e => .error e
        | .ok head =>
          if tag.closed then readContent (current.push (.element head [])) outer tail
          else readContent ⟨tag.name, head, []⟩ (current :: outer) tail
      | .ok (.stop name start, tail) =>
        if name = current.name then
          match outer with
          | [] => .ok (⟨current.head, current.content.reverse⟩, tail)
          | parent :: outer => readContent (parent.push current.close) outer tail
        else stopAt (.wrongEndTag current.name.display name.display) start
      | .ok (.text data, tail) => readContent (current.push (.text data)) outer tail
      | .ok (.comment data, tail) => readContent (current.push (.comment data)) outer tail
      | .ok (.instruction target data, tail) =>
        readContent (current.push (.instruction target data)) outer tail := by
  rw [readContent]
  split <;> next heq => exact heq ▸ rfl

theorem OpenElement.push_of_ne_text {current : OpenElement} {node : Node}
    (h : ∀ data before, current.content ≠ .text data :: before) :
    current.push node = { current with content := node :: current.content } := by
  unfold OpenElement.push
  split
  · next data before heq => exact absurd heq (h data before)
  · rfl

theorem escapeText_ne_nil {s : List Char} (h : s ≠ []) : escapeText s ≠ [] := by
  cases s with
  | nil => exact absurd rfl h
  | cons c rest =>
    rw [escapeText, List.flatMap_cons]
    refine List.append_ne_nil_of_left_ne_nil ?_ _
    unfold escapeTextChar
    split <;> exact List.cons_ne_nil _ _

/-- The reader adds the nodes of a text to the element that is open. -/
theorem readContent_textMarkup {text : Option String} (htext : IsAllowed (text.getD "").toList)
    (current : OpenElement) (hcurrent : ∀ data before, current.content ≠ .text data :: before)
    (outer : List OpenElement) (rest : List Char) :
    readContent current outer (textMarkup text ++ '<' :: rest) =
      readContent { current with content := textNodes text ++ current.content } outer ('<' :: rest) := by
  by_cases hempty : (text.getD "").toList = []
  · rw [textMarkup, textNodes, rereadText, hempty]
    rfl
  -- the characters up to the next tag are one token
  · have hnodes : textNodes text =
        [.text (.ofList (lineEndsRead false (text.getD "").toList))] := by
      rw [textNodes, rereadText]
      simp only [List.isEmpty_eq_false_iff.2 hempty, Bool.false_eq_true, if_false]
      rfl
    have hmark : ∀ c ∈ ('<' :: rest).head?, c = '<' := fun c hc => (Option.some.inj hc).symm
    have hread := readText_escapeText htext hmark
    obtain ⟨c, more, hwritten⟩ := List.exists_cons_of_ne_nil (escapeText_ne_nil hempty)
    have hc : c ≠ '<' := (mem_escapeText (hwritten ▸ List.mem_cons_self)).1
    rw [hwritten, List.cons_append] at hread
    have htoken : readToken c (more ++ '<' :: rest) = readText (c :: (more ++ '<' :: rest)) :=
      if_neg hc
    rw [textMarkup, hwritten, List.cons_append, readContent_cons, htoken, hread, hnodes]
    simp only
    rw [OpenElement.push_of_ne_text hcurrent]
    rfl

namespace Element

/-- The reader takes the start tag of an element that goes on. -/
theorem readContent_opens {e : Element} (he : e.IsWritable) {current : OpenElement}
    (hscope : current.head.scope = []) (outer : List OpenElement) (rest : List Char) :
    readContent current outer (e.startTag .opens ++ rest) =
      readContent ⟨⟨"", e.name.localPart⟩, e.headRead, []⟩ (current :: outer) rest := by
  have htoken := readToken_startTag he .opens rest
  rw [startTag_append, List.tail_cons] at htoken
  rw [startTag_append, readContent_cons, htoken]
  simp only [hscope, resolve_tagRead he]
  rfl

/-- The reader takes an element that is one tag. -/
theorem readContent_closes {e : Element} (he : e.IsWritable) {current : OpenElement}
    (hscope : current.head.scope = []) (outer : List OpenElement) (rest : List Char) :
    readContent current outer (e.startTag .closes ++ rest) =
      readContent (current.push (.element e.headRead [])) outer rest := by
  have htoken := readToken_startTag he .closes rest
  rw [startTag_append, List.tail_cons] at htoken
  rw [startTag_append, readContent_cons, htoken]
  simp only [hscope, resolve_tagRead he]
  rfl

theorem readContent_endTag {e : Element} (he : e.IsWritable) (content : List Node)
    (outer : List OpenElement) (rest : List Char) :
    readContent ⟨⟨"", e.name.localPart⟩, e.headRead, content⟩ outer (e.endTag ++ rest) =
      match outer with
      | [] => .ok (⟨e.headRead, content.reverse⟩, rest)
      | parent :: outer =>
        readContent (parent.push (.element e.headRead content.reverse)) outer rest := by
  have htoken := readToken_endTag he rest
  rw [endTag_append, List.tail_cons] at htoken
  rw [endTag_append, readContent_cons, htoken]
  simp only [if_true]
  rfl

theorem markup_of_isHollow {e : Element} (h : e.isHollow = true) :
    e.markup = e.startTag .closes ++ textMarkup e.tail := by
  cases e
  rw [markup, if_pos h]

/-- An element without content gives no nodes. -/
theorem inside_of_isHollow {e : Element} (h : e.isHollow = true) :
    textNodes e.text ++ nodesRead e.children = [] := by
  obtain ⟨hleaf, htext⟩ := Bool.and_eq_true_iff.1 h
  rw [textNodes_of_isEmpty htext, List.isEmpty_iff.1 hleaf, nodesRead, List.nil_append]

theorem markup_of_not_isHollow {e : Element} (h : e.isHollow = false) :
    e.markup = e.startTag .opens ++
      (textMarkup e.text ++ (markupAll e.children ++ (e.endTag ++ textMarkup e.tail))) := by
  cases e
  rw [markup, h]
  simp

theorem exists_markup_eq_cons (e : Element) : ∃ more, e.markup = '<' :: more := by
  obtain ⟨name, attributes, text, tail, children⟩ := e
  rw [markup]
  split <;> exact ⟨_, rfl⟩

theorem exists_markupAll_append (es : List Element) (rest : List Char) :
    ∃ more, markupAll es ++ '<' :: rest = '<' :: more := by
  cases es with
  | nil => exact ⟨rest, rfl⟩
  | cons e others =>
    obtain ⟨more, hmore⟩ := e.exists_markup_eq_cons
    exact ⟨more ++ markupAll others ++ '<' :: rest, by rw [markupAll, hmore]; simp⟩

/-- Wherever the reader stands, it makes one node of the element, and another of its tail. -/
def IsRead (e : Element) : Prop :=
  ∀ (current : OpenElement) (outer : List OpenElement) (rest : List Char),
    current.head.scope = [] →
    readContent current outer (e.markup ++ '<' :: rest) =
      readContent { current with content := textNodes e.tail ++ e.nodeRead :: current.content }
        outer ('<' :: rest)

/-- Wherever the reader stands, it makes the nodes of the elements one after the other. -/
def AreRead (es : List Element) : Prop :=
  ∀ (current : OpenElement) (outer : List OpenElement) (rest : List Char),
    current.head.scope = [] →
    readContent current outer (markupAll es ++ '<' :: rest) =
      readContent { current with content := (nodesRead es).reverse ++ current.content }
        outer ('<' :: rest)

/-- From a start tag to the end tag. -/
theorem readContent_inside {e : Element} (he : e.IsWritable) (hchildren : AreRead e.children)
    (outer : List OpenElement) (rest : List Char) :
    readContent ⟨⟨"", e.name.localPart⟩, e.headRead, []⟩ outer
        (textMarkup e.text ++ (markupAll e.children ++ (e.endTag ++ rest))) =
      readContent ⟨⟨"", e.name.localPart⟩, e.headRead,
        (textNodes e.text ++ nodesRead e.children).reverse⟩ outer (e.endTag ++ rest) := by
  obtain ⟨more, hmore⟩ :=
    exists_markupAll_append e.children ('/' :: (e.name.display.toList ++ '>' :: rest))
  rw [endTag_append, hmore, readContent_textMarkup he.text _ (by intro _ _ h; cases h), ← hmore,
    hchildren _ outer _ rfl]
  simp [reverse_textNodes]

theorem isRead_of_areRead {e : Element} (he : e.IsWritable) (hchildren : AreRead e.children) :
    e.IsRead := by
  intro current outer rest hscope
  have hcontent : e.nodeRead = .element e.headRead (textNodes e.text ++ nodesRead e.children) := by
    obtain ⟨name, attributes, text, tail, children⟩ := e
    rw [nodeRead]
  have hnoText : ∀ data before, e.nodeRead :: current.content ≠ .text data :: before := by
    intro data before heq
    rw [hcontent] at heq
    cases heq
  -- the tail comes last in either case
  refine Eq.trans ?_ (readContent_textMarkup he.tail
    { current with content := e.nodeRead :: current.content } hnoText outer rest)
  cases hhollow : e.isHollow with
  | true =>
    rw [markup_of_isHollow hhollow, List.append_assoc, readContent_closes he hscope, hcontent,
      inside_of_isHollow hhollow]
    rfl
  | false =>
    rw [markup_of_not_isHollow hhollow]
    simp only [List.append_assoc]
    rw [readContent_opens he hscope, readContent_inside he hchildren, readContent_endTag he,
      List.reverse_reverse, hcontent]
    rfl

mutual

theorem isRead : (e : Element) → e.Everywhere IsWritable → e.IsRead
  | ⟨_, _, _, _, children⟩, he =>
    isRead_of_areRead (everywhere_iff.1 he).1 (areRead children (everywhere_iff.1 he).2)

theorem areRead : (es : List Element) → (∀ e ∈ es, e.Everywhere IsWritable) → AreRead es
  | [], _ => fun _ _ _ _ => rfl
  | e :: others, hes => by
    intro current outer rest hscope
    obtain ⟨he, hothers⟩ := List.forall_mem_cons.1 hes
    -- what follows the first element starts with a tag, which ends its tail
    obtain ⟨more, hmore⟩ := exists_markupAll_append others rest
    rw [markupAll, List.append_assoc, hmore, isRead e he _ _ _ hscope, ← hmore]
    refine (areRead others hothers _ outer rest (by exact hscope)).trans ?_
    simp [nodesRead, reverse_textNodes]

end

/-! ## Documents -/

/-- The document that the reader makes of a written element. -/
def documentRead (e : Element) : Document := ⟨e.headRead, textNodes e.text ++ nodesRead e.children⟩

/-- What stands behind the root is left to be read. -/
theorem readRoot_markup {e : Element} (he : e.Everywhere IsWritable) (htail : e.tail = none)
    (rest : List Char) : readRoot (e.markup ++ rest).tail = .ok (some e.documentRead, rest) := by
  obtain ⟨hself, hchildren⟩ := everywhere_iff.1 he
  have hnoTail : textMarkup e.tail = [] := by rw [htail]; rfl
  cases hhollow : e.isHollow with
  | true =>
    have htag := readStartTag_markup hself .closes rest
    rw [markup_of_isHollow hhollow, hnoTail, List.append_nil, readRoot, htag, documentRead,
      inside_of_isHollow hhollow]
    simp only [bind, Except.bind, resolve_tagRead hself]
    rfl
  | false =>
    have htag := readStartTag_markup hself .opens
      (textMarkup e.text ++ (markupAll e.children ++ (e.endTag ++ rest)))
    have hinside : readContent ⟨⟨"", e.name.localPart⟩, e.headRead, []⟩ []
        (textMarkup e.text ++ (markupAll e.children ++ (e.endTag ++ rest))) =
          .ok (e.documentRead, rest) := by
      rw [readContent_inside hself (areRead e.children hchildren), readContent_endTag hself,
        List.reverse_reverse]
      rfl
    have hopen : (TagEnd.opens == TagEnd.closes) = false := rfl
    rw [markup_of_not_isHollow hhollow, hnoTail]
    simp only [List.append_assoc, List.nil_append]
    rw [readRoot, htag]
    simp only [bind, Except.bind, resolve_tagRead hself]
    simp only [tagRead, hopen, Bool.false_eq_true, if_false, hinside]
    rfl

theorem exists_markup_eq_cons_cons {e : Element} (he : e.IsWritable) :
    ∃ c more, e.markup = '<' :: c :: more ∧ isNameStart c = true := by
  obtain ⟨c, more, hname, hc⟩ := he.name.exists_cons
  cases hhollow : e.isHollow with
  | true =>
    rw [markup_of_isHollow hhollow, startTag_append, he.display, hname]
    exact ⟨c, _, rfl, hc⟩
  | false =>
    rw [markup_of_not_isHollow hhollow, startTag_append, he.display, hname]
    exact ⟨c, _, rfl, hc⟩

end Element

theorem skipPrologue_of_isNameStart {c : Char} (hc : isNameStart c = true) (rest : List Char) :
    skipPrologue ('<' :: c :: rest) = .ok ('<' :: c :: rest) := by
  have hquestion : c ≠ '?' := ne_of_isNameStart hc (by decide)
  have hopens : "<?xml ".toList = ['<', '?', 'x', 'm', 'l', ' '] := rfl
  have hmark : stripStart? ['\uFEFF'] ('<' :: c :: rest) = none := rfl
  have hdeclaration : stripStart? "<?xml ".toList ('<' :: c :: rest) = none := by
    cases h : stripStart? "<?xml ".toList ('<' :: c :: rest) with
    | none => rfl
    | some after =>
      have happend := eq_append_of_stripStart? h
      rw [hopens] at happend
      exact absurd (List.cons.inj (List.cons.inj happend).2).1.symm hquestion
  rw [skipPrologue, hmark]
  simp only [Option.getD_none, hdeclaration]

theorem skipMisc_of_isNameStart {c : Char} (hc : isNameStart c = true) (rest : List Char) :
    skipMisc ('<' :: c :: rest) = .ok ('<' :: c :: rest) := by
  have hskip : skipSpaces ('<' :: c :: rest) = '<' :: c :: rest := skipSpaces_cons (by decide) _
  have hbang : c ≠ '!' := ne_of_isNameStart hc (by decide)
  have hquestion : c ≠ '?' := ne_of_isNameStart hc (by decide)
  rw [skipMisc]
  split
  · next heq =>
    rw [hskip] at heq
    exact absurd (List.cons.inj (List.cons.inj heq).2).1 hbang
  · next heq =>
    rw [hskip] at heq
    exact absurd (List.cons.inj (List.cons.inj heq).2).1 hquestion
  · rw [hskip]

namespace Element

/-- Behind the root only what is no part of the document may follow. -/
theorem readDocument_markup {e : Element} (he : e.Everywhere IsWritable) (htail : e.tail = none)
    (rest : List Char) :
    readDocument (e.markup ++ rest) = (skipMisc rest >>= fun rest =>
      if rest.isEmpty then .ok e.documentRead else stopAt .unknownToken rest) := by
  have hroot := readRoot_markup he htail rest
  obtain ⟨c, more, hmarkup, hc⟩ := exists_markup_eq_cons_cons (everywhere_iff.1 he).1
  have hbang : ('!' == c) = false :=
    beq_eq_false_iff_ne.2 (ne_of_isNameStart hc (by decide)).symm
  have htype : "<!DOCTYPE".toList.isPrefixOf ('<' :: c :: (more ++ rest)) = false := by
    simp [List.isPrefixOf, hbang]
  rw [hmarkup, List.cons_append, List.cons_append, List.tail_cons] at hroot
  rw [hmarkup, List.cons_append, List.cons_append, readDocument, skipPrologue_of_isNameStart hc]
  simp only [bind, Except.bind, skipMisc_of_isNameStart hc, htype, hroot]
  rfl

end Element

/-! ## Trees -/

theorem insideOf_textNodes {nodes : List Node} (hnodes : (insideOf nodes).text = none)
    (text : Option String) :
    insideOf (textNodes text ++ nodes) = ⟨rereadText text, (insideOf nodes).children⟩ := by
  unfold textNodes
  cases hnodesIn : insideOf nodes with
  | mk inner children =>
    rw [hnodesIn] at hnodes
    cases hnodes
    cases rereadText text with
    | none => exact hnodesIn
    | some s =>
      change (Node.text s).before (insideOf nodes) = _
      rw [hnodesIn, Node.before, Option.getD_none, String.append_empty]

namespace Element

/-- The reader shows the names of a written element as they were written. -/
theorem names_headRead {e : Element} (he : e.IsWritable) :
    elementName e.headRead.scope e.headRead.name = e.name ∧
      e.headRead.attributeList = e.attributes.map Attribute.reread := by
  refine ⟨he.plain.symm, ?_⟩
  rw [ElementHead.attributeList, headRead, List.map_map]
  rfl

mutual

theorem before_nodeRead : (e : Element) → e.Everywhere IsWritable → ∀ after : Inside,
    e.nodeRead.before after = ⟨none, { e.reread with tail := after.text } :: after.children⟩
  | ⟨name, attributes, text, tail, children⟩, he, after => by
    obtain ⟨hself, hchildren⟩ := everywhere_iff.1 he
    obtain ⟨hname, hattributes⟩ := names_headRead hself
    have hinside := insideOf_nodesRead children hchildren
    rw [nodeRead, Node.before, insideOf_textNodes (by rw [hinside]), hname, hattributes, hinside,
      reread]

theorem insideOf_nodesRead : (es : List Element) → (∀ e ∈ es, e.Everywhere IsWritable) →
    insideOf (nodesRead es) = ⟨none, rereadAll es⟩
  | [], _ => rfl
  | e :: others, hes => by
    obtain ⟨he, hothers⟩ := List.forall_mem_cons.1 hes
    have hrest := insideOf_nodesRead others hothers
    rw [nodesRead, insideOf, before_nodeRead e he, insideOf_textNodes (by rw [hrest]), hrest, rereadAll]
    cases e
    rw [reread]

end

theorem toElement_documentRead {e : Element} (he : e.Everywhere IsWritable) (htail : e.tail = none) :
    e.documentRead.toElement = e.reread := by
  obtain ⟨hself, hchildren⟩ := everywhere_iff.1 he
  obtain ⟨hname, hattributes⟩ := names_headRead hself
  have hinside := insideOf_nodesRead e.children hchildren
  simp only [Document.toElement, documentRead]
  rw [insideOf_textNodes (by rw [hinside]), hname, hattributes, hinside]
  cases e
  cases htail
  rw [reread]
  rfl

/-- The markup of a writable tree is read again just if only spaces, comments and processing
instructions follow it. -/
theorem parse_markup_append_iff {e : Element} (he : e.Everywhere IsWritable) (htail : e.tail = none)
    {rest : List Char} {read : Element} :
    Xml.parse (e.markup ++ rest) = .ok read ↔ skipMisc rest = .ok [] ∧ e.reread = read := by
  rw [Xml.parse, readDocument_markup he htail]
  cases skipMisc rest with
  | error fault => simp [bind, Except.bind]
  | ok left =>
    cases left with
    | nil => simp [bind, Except.bind, toElement_documentRead he htail]
    | cons c left => simp [bind, Except.bind, stopAt]

/-- The markup of a writable tree is read again. -/
theorem parse_markup {e : Element} (he : e.Everywhere IsWritable) (htail : e.tail = none) :
    Xml.parse e.markup = .ok e.reread := by
  have hend : skipMisc [] = .ok [] := by
    rw [skipMisc]
    rfl
  have hread := (parse_markup_append_iff he htail).2 ⟨hend, rfl⟩
  rwa [List.append_nil] at hread

end Element

end Docweave
