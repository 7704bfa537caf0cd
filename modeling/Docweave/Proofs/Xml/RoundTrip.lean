import Docweave.ParseError
import Docweave.Proofs.Xml.Delivered
import Docweave.Proofs.Xml.DocumentMarkup

set_option autoImplicit false

/-! # Writing a tree that was read

A tree that was read from a text without namespaces can be written and read again. It then is the tree
that it was, unless a value or a text holds what the markup does not keep: `parse_toXml` gives the tree
that comes back and the exact condition. -/

namespace Docweave

open Xml

namespace Element

/-- No name at the element itself is in a namespace. The name of an attribute in a namespace shows it:
it has a prefix, or the namespace in braces. -/
structure IsNamespaceFree (e : Element) : Prop where
  name : e.name.uri = none
  attributes : ∀ a ∈ e.attributes, ':' ∉ a.name.toList ∧ '\x7b' ∉ a.name.toList

instance : DecidablePred IsNamespaceFree := fun e =>
  decidable_of_iff
    (e.name.uri = none ∧ ∀ a ∈ e.attributes, ':' ∉ a.name.toList ∧ '\x7b' ∉ a.name.toList)
    ⟨fun h => ⟨h.1, h.2⟩, fun h => ⟨h.name, h.attributes⟩⟩

end Element

theorem attributeName_of_uri {scope : Scope} {name : ExpandedName} {uri : String}
    (h : name.uri = some uri) :
    ':' ∈ (attributeName scope name).toList ∨ '\x7b' ∈ (attributeName scope name).toList := by
  rw [attributeName, h]
  simp only
  split
  · exact .inl (by simp)
  · exact .inr (by simp)

/-- An attribute whose name shows no namespace is in none. -/
theorem uri_eq_none {scope : Scope} {name : ExpandedName}
    (h : ':' ∉ (attributeName scope name).toList ∧ '\x7b' ∉ (attributeName scope name).toList) :
    name.uri = none := by
  cases huri : name.uri with
  | none => rfl
  | some uri => exact ((attributeName_of_uri huri).elim h.1 h.2).elim

theorem attributeName_of_uri_none {scope : Scope} {name : ExpandedName} (h : name.uri = none) :
    attributeName scope name = name.localPart := by
  rw [attributeName, h]

/-- The start tag that the reader delivers can be written, if no name in it is in a namespace. -/
theorem isWritable_of_head {head : ElementHead} (hhead : head.IsSound) {e : Element}
    (hname : e.name = elementName head.scope head.name) (hattributes : e.attributes = head.attributeList)
    (hfree : e.IsNamespaceFree) (htext : IsAllowed (e.text.getD "").toList)
    (htail : IsAllowed (e.tail.getD "").toList) : e.IsWritable := by
  -- the name shown tells whether there is a namespace
  have hnone : head.name.uri = none := by
    have huri := hfree.name
    rw [hname, elementName] at huri
    split at huri
    · cases huri
    · assumption
  have hplain : e.name = .plain head.name.localPart := by rw [hname, elementName, hnone]
  have huris : ∀ a ∈ head.attributes, a.name.uri = none := by
    intro a ha
    refine uri_eq_none (hfree.attributes ⟨attributeName head.scope a.name, a.value⟩ ?_)
    rw [hattributes]
    exact List.mem_map_of_mem ha
  have hlist : e.attributes = head.attributes.map fun a => ⟨a.name.localPart, a.value⟩ := by
    rw [hattributes, ElementHead.attributeList]
    exact List.map_congr_left fun a ha => by rw [attributeName_of_uri_none (huris a ha)]
  refine ⟨by rw [hplain]; rfl, by rw [hplain]; exact hhead.name, ?_, ?_, htext, htail⟩
  · intro a ha
    rw [hlist] at ha
    obtain ⟨b, hb, rfl⟩ := List.mem_map.1 ha
    exact hhead.attributes b hb
  · have hdistinct := hhead.distinct
    rw [List.Nodup, List.pairwise_map] at hdistinct
    rw [hlist, List.map_map, List.Nodup, List.pairwise_map]
    refine hdistinct.imp_of_mem fun {a b} ha hb hne heq => hne ?_
    have hparts : a.name = ⟨a.name.uri, a.name.localPart⟩ := rfl
    rw [hparts, huris a ha, show a.name.localPart = b.name.localPart from heq, ← huris b hb]

/-- What the reader delivers inside an element can be written, where no name is in a namespace. -/
structure Xml.Inside.IsSound (inside : Inside) : Prop where
  text : IsAllowed (inside.text.getD "").toList
  children : ∀ child ∈ inside.children,
    child.Everywhere fun e => e.IsNamespaceFree → e.IsWritable

/-- An element is as sound as what it is made of. -/
theorem everywhere_isWritable {head : ElementHead} (hhead : head.IsSound) {inside : Inside}
    (hinside : inside.IsSound) {tail : Option String} (htail : IsAllowed (tail.getD "").toList) :
    Element.Everywhere (fun e => e.IsNamespaceFree → e.IsWritable)
      ⟨elementName head.scope head.name, head.attributeList, inside.text, tail, inside.children⟩ :=
  Element.everywhere_iff.2
    ⟨fun hfree => isWritable_of_head hhead rfl rfl hfree hinside.text htail, hinside.children⟩

mutual

theorem isSound_before : (node : Node) → node.IsSound → ∀ after : Inside, after.IsSound →
    (node.before after).IsSound
  | .element head content, hnode, after, hafter => by
    obtain ⟨hhead, hcontent⟩ := hnode
    have hinside := isSound_insideOf content hcontent
    refine ⟨.nil, fun child hmem => ?_⟩
    rcases List.mem_cons.1 hmem with rfl | hlater
    · exact everywhere_isWritable hhead hinside hafter.text
    · exact hafter.children child hlater
  | .text data, hnode, after, hafter => by
    have hdata : IsAllowed data.toList := by
      cases hnode
      assumption
    refine ⟨?_, hafter.children⟩
    rw [Node.before, Option.getD_some, String.toList_append]
    exact fun c hc => (List.mem_append.1 hc).elim (hdata c) (hafter.text c)
  | .comment _, _, _, hafter => hafter
  | .instruction _ _, _, _, hafter => hafter

theorem isSound_insideOf : (nodes : List Node) → (∀ node ∈ nodes, node.IsSound) →
    (insideOf nodes).IsSound
  | [], _ => ⟨.nil, fun _ h => absurd h List.not_mem_nil⟩
  | node :: rest, hnodes => by
    obtain ⟨hnode, hrest⟩ := List.forall_mem_cons.1 hnodes
    exact isSound_before node hnode _ (isSound_insideOf rest hrest)

end

namespace Element

/-- Where no name of a tree that was read is in a namespace, the tree can be written. -/
theorem everywhere_of_parse {s : List Char} {e : Element} (hread : Xml.parse s = .ok e) :
    e.Everywhere (fun node => node.IsNamespaceFree → node.IsWritable) ∧ e.tail = none := by
  unfold Xml.parse at hread
  split at hread
  · next document hdocument =>
    cases hread
    have hsound := gives_readDocument s document hdocument
    exact ⟨everywhere_isWritable hsound.head (isSound_insideOf _ hsound.content) .nil, rfl⟩
  · cases hread

theorem xml_parse_of_parse {file : Nat} {text : String} {e : Element} (hread : parse file text = .ok e) :
    Xml.parse text.toList = .ok e := by
  unfold parse at hread
  cases hparsed : Xml.parse text.toList with
  | error error => rw [hparsed] at hread; cases hread
  | ok tree => rw [hparsed] at hread; cases hread; rfl

/-- A tree without namespaces that was read from a text is read again from its markup, whatever the
text. What comes back is the tree itself exactly if no value of an attribute holds a tab or a carriage
return, no text is there without characters, and each carriage return in a text stands just before
a character that is written as a reference, or at the end and just after one. -/
theorem parse_toXml {file : Nat} {text : String} {e : Element} (hread : parse file text = .ok e)
    (hfree : e.Everywhere IsNamespaceFree) (again : Nat) :
    parse again e.toXml = .ok e.reread ∧
      (parse again e.toXml = .ok e ↔ e.Everywhere IsKept) := by
  obtain ⟨hsound, htail⟩ := everywhere_of_parse (xml_parse_of_parse hread)
  have hwritable : e.Everywhere IsWritable := fun node hmem => hsound node hmem (hfree node hmem)
  have hagain : parse again e.toXml = .ok e.reread := by
    rw [parse, toXml_eq, String.toList_ofList, parse_markup hwritable htail]
    rfl
  refine ⟨hagain, ?_⟩
  rw [hagain, Except.ok.injEq, reread_eq_self_iff]

/-! ### Two texts -/

/-- What tells an element without children apart from others. -/
def leafParts (e : Element) : QName × List Attribute × Option String × Option String × Bool :=
  (e.name, e.attributes, e.text, e.tail, e.isLeaf)

theorem eq_ok_of_leafParts {result : Except ParseError Element} {e : Element}
    (hleaf : e.isLeaf = true) (h : result.toOption.map leafParts = some e.leafParts) :
    result = .ok e := by
  cases result with
  | error error => cases h
  | ok read =>
    obtain ⟨name, attributes, text, tail, children⟩ := read
    obtain ⟨name', attributes', text', tail', children'⟩ := e
    have hchildren' : children' = [] := List.isEmpty_iff.1 hleaf
    subst hchildren'
    have hparts := Option.some.inj h
    simp only [leafParts, isLeaf, Prod.mk.injEq] at hparts
    obtain ⟨rfl, rfl, rfl, rfl, hchildren⟩ := hparts
    rw [List.isEmpty_iff.1 hchildren]

/-- A comparison with a line feed in an attribute. -/
def comparison : Element := ⟨.plain "a", [⟨"b", "\n"⟩], some "x < y", none, []⟩

theorem parse_toXml_comparison :
    parse 0 "<a b=\"&#10;\">x &lt; y</a>" = .ok comparison ∧
      comparison.Everywhere IsNamespaceFree ∧ parse 0 comparison.toXml = .ok comparison := by
  have hread : parse 0 "<a b=\"&#10;\">x &lt; y</a>" = .ok comparison :=
    eq_ok_of_leafParts rfl (by decide +kernel)
  have hfree : comparison.Everywhere IsNamespaceFree :=
    everywhere_iff.2 ⟨⟨rfl, by decide⟩, fun _ h => absurd h List.not_mem_nil⟩
  have htext : IsKeptText "x < y" := ⟨by decide, (lineEndsRead_eq_self_iff _ _).1 (by decide)⟩
  have hkept : comparison.Everywhere IsKept := by
    refine everywhere_iff.2 ⟨⟨?_, ?_, nofun⟩, fun _ h => absurd h List.not_mem_nil⟩
    · intro a ha
      rw [List.mem_singleton.1 ha]
      exact ⟨by decide, by decide⟩
    · rintro s ⟨⟩
      exact htext
  exact ⟨hread, hfree, (parse_toXml hread hfree 0).2.2 hkept⟩

/-- A tab in an attribute. -/
def tabbed : Element := ⟨.plain "a", [⟨"b", "\t"⟩], none, none, []⟩

/-- A tab that a reference writes is written as it is, and read as a space. -/
theorem not_parse_toXml :
    ¬ ∀ (file again : Nat) (text : String) (e : Element), parse file text = .ok e →
      e.Everywhere IsNamespaceFree → parse again e.toXml = .ok e := by
  intro h
  have hread : parse 0 "<a b=\"&#9;\"/>" = .ok tabbed := eq_ok_of_leafParts rfl (by decide +kernel)
  have hfree : tabbed.Everywhere IsNamespaceFree :=
    everywhere_iff.2 ⟨⟨rfl, by decide⟩, fun _ h => absurd h List.not_mem_nil⟩
  have hspace : (parse 0 tabbed.toXml).toOption.map (·.attributes) = some [⟨"b", " "⟩] := by
    decide +kernel
  rw [h 0 0 _ tabbed hread hfree] at hspace
  exact absurd hspace (by decide)

end Element

end Docweave
