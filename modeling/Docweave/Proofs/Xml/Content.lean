import Docweave.Xml.Element
import Mathlib.Data.List.Forall2

set_option autoImplicit false

/-! # The content of a document in its element tree

An element keeps the character data in front of its first child as its text, and what stands behind a
child as the tail of that child. `Document.events_toElement` says that nothing is lost or moved that
way: read in order, the tree gives the tags and the character data of the document, with the data on
either side of a comment or an instruction in one piece, and a text or a tail is absent just where the
document has no character data at that place. The tags of a document carry its attributes with the names
that the reader has resolved; `ElementHead.IsShownAs` says what the tree makes of them. -/

namespace Docweave

open Docweave.Xml
open List (Forall₂)

/-! ## Reading in order -/

/-- What is met when a document or an element tree is read in order. -/
inductive MarkupEvent (α : Type) where
  /-- An element starts with a tag. -/
  | start (tag : α)
  /-- Character data. -/
  | chars (data : String)
  /-- The innermost element that has started ends. -/
  | stop

namespace MarkupEvent

variable {α β : Type}

/-- The event with another tag. -/
def map (f : α → β) : MarkupEvent α → MarkupEvent β
  | start tag => start (f tag)
  | chars data => chars data
  | stop => stop

/-- The events are the same, up to tags that are related. -/
inductive Matches (R : α → β → Prop) : MarkupEvent α → MarkupEvent β → Prop
  | start {tag : α} {other : β} (h : R tag other) : Matches R (start tag) (start other)
  | chars (data : String) : Matches R (chars data) (chars data)
  | stop : Matches R stop stop

theorem matches_map {R : α → β → Prop} {f : α → β} (h : ∀ tag, R tag (f tag)) (event : MarkupEvent α) :
    Matches R event (event.map f) := by
  cases event with
  | start tag => exact .start (h tag)
  | chars data => exact .chars data
  | stop => exact .stop

end MarkupEvent

/-- The events with character data in a row joined. -/
def joinChars {α : Type} : List (MarkupEvent α) → List (MarkupEvent α)
  | [] => []
  | .chars data :: rest =>
    match joinChars rest with
    | .chars more :: after => .chars (data ++ more) :: after
    | after => .chars data :: after
  | event :: rest => event :: joinChars rest

/-- Joining does not look at the tags. -/
theorem joinChars_map {α β : Type} (f : α → β) (events : List (MarkupEvent α)) :
    joinChars (events.map (MarkupEvent.map f)) = (joinChars events).map (MarkupEvent.map f) := by
  induction events with
  | nil => rfl
  | cons event rest ih =>
    cases event with
    | start | stop => exact congrArg (_ :: ·) ih
    | chars data =>
      rw [List.map_cons, MarkupEvent.map, joinChars, joinChars, ih]
      cases joinChars rest with
      | nil => rfl
      | cons first after => cases first <;> rfl

/-- The start tag of an element as the tree has it: the name without its prefix, and the attributes. -/
structure ElementTag where
  /-- The name of the element. -/
  name : ExpandedName
  /-- The attributes in document order. -/
  attributes : List Attribute

/-- The event of character data that may be absent. -/
def charsOf {α : Type} (text : Option String) : List (MarkupEvent α) := (text.map .chars).toList

namespace Element

mutual

/-- The events of an element, without its tail. -/
def events : Element → List (MarkupEvent ElementTag)
  | ⟨name, attributes, text, _, children⟩ =>
    .start ⟨⟨name.uri, name.localPart⟩, attributes⟩ ::
      (charsOf text ++ (eventsAll children ++ [.stop]))

/-- The events of elements in a row, each followed by its tail. -/
def eventsAll : List Element → List (MarkupEvent ElementTag)
  | [] => []
  | e :: rest => e.events ++ (charsOf e.tail ++ eventsAll rest)

end

end Element

namespace Xml

mutual

/-- The events of a node. Comments and instructions give none. -/
def Node.events : Node → List (MarkupEvent ElementHead)
  | .element head content => .start head :: (eventsOf content ++ [.stop])
  | .text data => [.chars data]
  | .comment _ => []
  | .instruction _ _ => []

/-- The events of nodes in a row. -/
def eventsOf : List Node → List (MarkupEvent ElementHead)
  | [] => []
  | node :: rest => node.events ++ eventsOf rest

end

/-- The events of a document. -/
def Document.events (document : Document) : List (MarkupEvent ElementHead) :=
  .start document.head :: (eventsOf document.content ++ [.stop])

/-- The events of what an element holds. -/
def Inside.events (inside : Inside) : List (MarkupEvent ElementTag) :=
  charsOf inside.text ++ Element.eventsAll inside.children

/-! ## Names of attributes -/

/-- A name is shown by its local part; in a namespace it has a prefix of the namespace in front, or the
namespace itself in braces if no prefix is at hand. -/
inductive ExpandedName.IsShownAs (scope : Scope) : ExpandedName → String → Prop
  | plain (localPart : String) : IsShownAs scope ⟨none, localPart⟩ localPart
  | prefixed {uri lead : String} (h : scope.leadOf? uri = some lead) (localPart : String) :
    IsShownAs scope ⟨some uri, localPart⟩ (lead ++ ":" ++ localPart)
  | braced {uri : String} (h : scope.leadOf? uri = none) (localPart : String) :
    IsShownAs scope ⟨some uri, localPart⟩ ("\x7b" ++ uri ++ "\x7d" ++ localPart)

/-- The attribute keeps its value, and its name is shown. -/
structure NodeAttribute.IsShownAs (scope : Scope) (a : NodeAttribute) (shown : Attribute) : Prop where
  name : a.name.IsShownAs scope shown.name
  value : shown.value = a.value

/-- The tag names the same element, and has its attributes in the same order. -/
structure ElementHead.IsShownAs (head : ElementHead) (tag : ElementTag) : Prop where
  name : tag.name = head.name
  attributes : Forall₂ (NodeAttribute.IsShownAs head.scope) head.attributes tag.attributes

theorem isShownAs_attributeName (scope : Scope) (name : ExpandedName) :
    name.IsShownAs scope (attributeName scope name) := by
  obtain ⟨uri, localPart⟩ := name
  cases uri with
  | none => exact .plain localPart
  | some uri =>
    unfold attributeName
    dsimp only
    cases hlead : scope.leadOf? uri with
    | none => exact .braced hlead localPart
    | some lead => exact .prefixed hlead localPart

/-- The tag that the tree has for a start tag of the document. -/
def ElementHead.tag (head : ElementHead) : ElementTag := ⟨head.name, head.attributeList⟩

theorem ElementHead.isShownAs_tag (head : ElementHead) : head.IsShownAs head.tag where
  name := rfl
  attributes := List.forall₂_map_right_iff.2
    (List.forall₂_same.2 fun a _ => ⟨isShownAs_attributeName head.scope a.name, rfl⟩)

/-! ## Nothing is lost or moved -/

theorem expandedName_elementName (scope : Scope) (name : ExpandedName) :
    (⟨(elementName scope name).uri, (elementName scope name).localPart⟩ : ExpandedName) = name := by
  obtain ⟨uri, localPart⟩ := name
  cases uri <;> rfl

/-- The element of a head has the events of the head around those of what it holds. -/
theorem events_elementOf (head : ElementHead) (inside : Inside) (tail : Option String) :
    Element.events ⟨elementName head.scope head.name, head.attributeList, inside.text, tail,
        inside.children⟩ =
      .start head.tag :: (inside.events ++ [.stop]) := by
  rw [Element.events, expandedName_elementName, Inside.events, List.append_assoc]
  rfl

/-- Character data joins the text of what stands behind it. -/
theorem joinChars_chars (data : String) (inside : Inside) {rest after : List (MarkupEvent ElementTag)}
    (hrest : joinChars rest = inside.events ++ .stop :: after) :
    joinChars (.chars data :: rest) =
      Inside.events ⟨some (data ++ inside.text.getD ""), inside.children⟩ ++ .stop :: after := by
  obtain ⟨text, children⟩ := inside
  rw [joinChars, hrest]
  cases text with
  | some more => rfl
  | none =>
    cases children with
    | nil => simp [Inside.events, charsOf, Element.eventsAll]
    | cons e children =>
      obtain ⟨name, attributes, text, tail, below⟩ := e
      simp [Inside.events, charsOf, Element.eventsAll, Element.events]

/-- The events of nodes, with the tags that the tree has for them. -/
def shownEvents (events : List (MarkupEvent ElementHead)) : List (MarkupEvent ElementTag) :=
  events.map (MarkupEvent.map ElementHead.tag)

theorem shownEvents_append (events more : List (MarkupEvent ElementHead)) :
    shownEvents (events ++ more) = shownEvents events ++ shownEvents more := List.map_append

mutual

/-- A node in front of others gives the events of what it makes of them. -/
theorem joinChars_before (rest : List Node) (after : List (MarkupEvent ElementTag))
    (hrest : joinChars (shownEvents (eventsOf rest) ++ .stop :: after) =
      (insideOf rest).events ++ .stop :: joinChars after) : (node : Node) →
    joinChars (shownEvents node.events ++ (shownEvents (eventsOf rest) ++ .stop :: after)) =
      (node.before (insideOf rest)).events ++ .stop :: joinChars after
  | .element head content => by
    have hcontent := joinChars_inside content (shownEvents (eventsOf rest) ++ .stop :: after)
    have hevents : shownEvents (Node.element head content).events =
        .start head.tag :: (shownEvents (eventsOf content) ++ [.stop]) := by
      rw [Node.events, ← List.singleton_append, shownEvents_append, shownEvents_append]
      rfl
    rw [hrest] at hcontent
    rw [hevents, Node.before, Inside.events, Element.eventsAll, events_elementOf]
    simp only [List.cons_append, List.append_assoc, List.nil_append, joinChars, hcontent]
    simp [Inside.events, charsOf]
  | .text data => by
    rw [Node.before]
    exact joinChars_chars data _ hrest
  | .comment _ => by
    rw [Node.before]
    exact hrest
  | .instruction _ _ => by
    rw [Node.before]
    exact hrest

/-- Up to the end of what holds them, nodes give the events of what they make. -/
theorem joinChars_inside : (nodes : List Node) → (after : List (MarkupEvent ElementTag)) →
    joinChars (shownEvents (eventsOf nodes) ++ .stop :: after) =
      (insideOf nodes).events ++ .stop :: joinChars after
  | [], after => by
    simp [eventsOf, shownEvents, insideOf, joinChars, Inside.events, charsOf, Element.eventsAll]
  | node :: rest, after => by
    rw [eventsOf, shownEvents_append, List.append_assoc, insideOf]
    exact joinChars_before rest after (joinChars_inside rest after) node

end

theorem joinChars_shownEvents (document : Document) :
    joinChars (shownEvents document.events) = document.toElement.events := by
  have hinside := joinChars_inside document.content []
  have hevents : shownEvents document.events =
      .start document.head.tag :: (shownEvents (eventsOf document.content) ++ [.stop]) := by
    rw [Document.events, ← List.singleton_append, shownEvents_append, shownEvents_append]
    rfl
  rw [hevents, Document.toElement, events_elementOf, joinChars, hinside]
  · rfl
  · nofun

/-! ## Where there is no text -/

/-- The node is an element. -/
def Node.isElement : Node → Bool
  | .element .. => true
  | .text _ | .comment _ | .instruction .. => false

/-- The node is character data. -/
def Node.isText : Node → Bool
  | .text _ => true
  | .element .. | .comment _ | .instruction .. => false

/-- There is no character data before the first element of the nodes, or before their end. -/
def NoTextFirst (nodes : List Node) : Prop :=
  ∀ node ∈ nodes.takeWhile (!·.isElement), node.isText = false

theorem text_insideOf_eq_none_iff (nodes : List Node) :
    (insideOf nodes).text = none ↔ NoTextFirst nodes := by
  induction nodes with
  | nil => simp [insideOf, NoTextFirst]
  | cons node rest ih =>
    unfold NoTextFirst at ih ⊢
    cases node with
    | element | text => simp [insideOf, Node.before, Node.isElement, Node.isText]
    | comment | instruction => simp [insideOf, Node.before, Node.isElement, Node.isText, ih]

/-- An element of a document where it stands. -/
structure Site where
  /-- What its start tag says. -/
  head : ElementHead
  /-- The nodes inside it. -/
  content : List Node
  /-- The nodes behind it in its parent. -/
  after : List Node

/-- The element of the tree that a site makes: named as its start tag says, and without a text or a
tail just where the document has no character data up to the next tag of an element. -/
structure Site.Makes (site : Site) (e : Element) : Prop where
  name : e.name = elementName site.head.scope site.head.name
  attributes : e.attributes = site.head.attributeList
  text_eq_none_iff : e.text = none ↔ NoTextFirst site.content
  tail_eq_none_iff : e.tail = none ↔ NoTextFirst site.after

mutual

/-- The elements at a node in document order, where `after` stands behind the node. -/
def Node.sites (after : List Node) : Node → List Site
  | .element head content => ⟨head, content, after⟩ :: sitesOf content
  | .text _ => []
  | .comment _ => []
  | .instruction _ _ => []

/-- The elements at nodes in a row, in document order. -/
def sitesOf : List Node → List Site
  | [] => []
  | node :: rest => node.sites rest ++ sitesOf rest

end

/-- The elements of a document in document order. -/
def Document.sites (document : Document) : List Site :=
  ⟨document.head, document.content, []⟩ :: sitesOf document.content

theorem Site.makes (site : Site) :
    site.Makes
      ⟨elementName site.head.scope site.head.name, site.head.attributeList,
        (insideOf site.content).text, (insideOf site.after).text,
        (insideOf site.content).children⟩ :=
  ⟨rfl, rfl, text_insideOf_eq_none_iff _, text_insideOf_eq_none_iff _⟩

mutual

theorem makes_before (rest : List Node)
    (hrest : Forall₂ Site.Makes (sitesOf rest) (Element.preorder (insideOf rest).children)) :
    (node : Node) →
      Forall₂ Site.Makes (node.sites rest ++ sitesOf rest)
        (Element.preorder (node.before (insideOf rest)).children)
  | .element head content => by
    have hcontent := makes_insideOf content
    rw [Node.sites, Node.before, Element.preorder, Element.descendants]
    exact .cons (Site.makes ⟨head, content, rest⟩) (List.rel_append hcontent hrest)
  | .text _ => hrest
  | .comment _ => hrest
  | .instruction _ _ => hrest

theorem makes_insideOf : (nodes : List Node) →
    Forall₂ Site.Makes (sitesOf nodes) (Element.preorder (insideOf nodes).children)
  | [] => .nil
  | node :: rest => makes_before rest (makes_insideOf rest) node

end

/-- Read in order, the element tree of a document gives the start tags, the character data and the end
tags of the document, with character data in a row joined and the attributes shown by their names; and
its elements are those of the document, in document order, with a text and a tail just where there is
character data. -/
theorem Document.events_toElement (document : Document) :
    Forall₂ (MarkupEvent.Matches ElementHead.IsShownAs) (joinChars document.events)
        document.toElement.events ∧
      Forall₂ Site.Makes document.sites (document.toElement :: document.toElement.descendants) := by
  constructor
  · rw [← joinChars_shownEvents, shownEvents, joinChars_map, List.forall₂_map_right_iff]
    exact List.forall₂_same.2 fun event _ => event.matches_map ElementHead.isShownAs_tag
  · rw [Element.descendants_eq]
    exact .cons (Site.makes ⟨document.head, document.content, []⟩) (makes_insideOf document.content)

end Xml

end Docweave
