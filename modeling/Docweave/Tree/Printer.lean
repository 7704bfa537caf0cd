import Docweave.Tree.Basic
import Docweave.Tree.Escape

set_option autoImplicit false

/-! # Markup of a tree

An element without children and without text is written as one tag that closes itself; any other as
a start tag, its text, its children and an end tag. The tail follows. -/

namespace Docweave

/-- An attribute as it is written, with the space before it. -/
def Attribute.markup (a : Attribute) : List Char :=
  ' ' :: a.name.toList ++ ['=', '"'] ++ escapeValue a.value.toList ++ ['"']

/-- How a start tag ends. -/
inductive TagEnd where
  /-- The element goes on until its end tag. -/
  | opens
  /-- The tag is the whole element. -/
  | closes
deriving DecidableEq, Repr

/-- The characters that end a start tag. -/
def TagEnd.markup : TagEnd → List Char
  | .opens => ['>']
  | .closes => [' ', '/', '>']

/-- Optional character data as it is written; nothing when it is absent. -/
def textMarkup (text : Option String) : List Char := escapeText (text.getD "").toList

namespace Element

/-- A start tag with its attributes. -/
def startTag (e : Element) (tagEnd : TagEnd) : List Char :=
  '<' :: e.name.display.toList ++ e.attributes.flatMap Attribute.markup ++ tagEnd.markup

/-- An end tag. -/
def endTag (e : Element) : List Char := ['<', '/'] ++ e.name.display.toList ++ ['>']

/-- There are no children and no characters inside. -/
def isHollow (e : Element) : Bool := e.children.isEmpty && e.textOrEmpty.isEmpty

mutual

/-- The element with everything below it and its tail. -/
def markup : Element → List Char
  | e@⟨_, _, text, tail, children⟩ =>
    (if e.isHollow then startTag e .closes
    else startTag e .opens ++ textMarkup text ++ markupAll children ++ endTag e) ++ textMarkup tail

/-- Elements one after the other. -/
def markupAll : List Element → List Char
  | [] => []
  | e :: rest => markup e ++ markupAll rest

end

mutual

/-- The markup of an element and its tail with `rest` behind it. No character is moved twice, however
deep the element is. -/
def markupOnto (rest : List Char) : Element → List Char
  | e@⟨_, _, text, tail, children⟩ =>
    if e.isHollow then startTag e .closes ++ (textMarkup tail ++ rest)
    else startTag e .opens ++ (textMarkup text ++
      markupAllOnto (endTag e ++ (textMarkup tail ++ rest)) children)

/-- The markup of elements with `rest` behind it. -/
def markupAllOnto (rest : List Char) : List Element → List Char
  | [] => rest
  | e :: others => markupOnto (markupAllOnto rest others) e

end

mutual

theorem markupOnto_eq (rest : List Char) : (e : Element) → e.markupOnto rest = e.markup ++ rest
  | ⟨_, _, _, _, children⟩ => by
    rw [markupOnto, markup]
    split <;> simp [markupAllOnto_eq _ children]

theorem markupAllOnto_eq (rest : List Char) :
    (es : List Element) → markupAllOnto rest es = markupAll es ++ rest
  | [] => rfl
  | e :: others => by
    rw [markupAllOnto, markupOnto_eq _ e, markupAllOnto_eq rest others, markupAll, List.append_assoc]

end

/-- The markup of an element and its tail. -/
def toXml (e : Element) : String := String.ofList (e.markupOnto [])

/-- The markup of what an element holds: its text and its children with their tails. -/
def innerXml (e : Element) : String :=
  String.ofList (textMarkup e.text ++ markupAllOnto [] e.children)

theorem toXml_eq (e : Element) : e.toXml = String.ofList e.markup := by
  rw [toXml, markupOnto_eq, List.append_nil]

theorem innerXml_eq (e : Element) :
    e.innerXml = String.ofList (textMarkup e.text ++ markupAll e.children) := by
  rw [innerXml, markupAllOnto_eq, List.append_nil]

end Element

end Docweave
