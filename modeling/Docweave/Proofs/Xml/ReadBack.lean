import Docweave.Proofs.Xml.RoundTrip

set_option autoImplicit false

/-! # Trees that their markup stands for

The reader takes the markup of a tree without namespaces for that tree just if everything in the tree can
be written: `isReadBack_iff` takes the markup apart, so that a change to a tree is judged by what it puts
in. -/

namespace Docweave

open Xml

/-! ## Characters that are read -/

theorem isAllowed_of_map_blankRead {s : List Char} (h : IsAllowed (s.map blankRead)) : IsAllowed s := by
  intro c hc
  have hread := h _ (List.mem_map_of_mem hc)
  unfold blankRead at hread
  split at hread
  · next hblank => rcases hblank with rfl | rfl <;> decide
  · exact hread

theorem eq_or_mem_lineEndsRead {c : Char} {afterReference : Bool} {s : List Char} (hc : c ∈ s) :
    c = '\r' ∨ c ∈ lineEndsRead afterReference s := by
  fun_induction lineEndsRead afterReference s with
  | case1 => exact absurd hc List.not_mem_nil
  | case2 | case3 => exact .inl (List.mem_singleton.1 hc)
  | case4 afterReference rest ih =>
    rw [List.mem_cons, List.mem_cons] at hc
    rcases hc with rfl | rfl | hc
    · exact .inl rfl
    · exact .inr List.mem_cons_self
    · exact (ih hc).imp_right (List.mem_cons_of_mem _)
  | case5 afterReference d rest _ ih =>
    rcases List.mem_cons.1 hc with rfl | hc
    · exact .inl rfl
    · exact (ih hc).imp_right (List.mem_cons_of_mem _)
  | case6 afterReference d rest _ _ _ ih =>
    rcases List.mem_cons.1 hc with rfl | hc
    · exact .inr List.mem_cons_self
    · exact (ih hc).imp_right (List.mem_cons_of_mem _)

theorem isAllowed_of_rereadText {text : Option String}
    (h : IsAllowed ((rereadText text).getD "").toList) : IsAllowed (text.getD "").toList := by
  intro c hc
  have hread : rereadText text = some (.ofList (lineEndsRead false (text.getD "").toList)) := by
    rw [rereadText, if_neg (by rw [List.isEmpty_iff]; exact List.ne_nil_of_mem hc)]
  rw [hread, Option.getD_some, String.toList_ofList] at h
  rcases eq_or_mem_lineEndsRead hc with rfl | hmem
  · decide
  · exact h c hmem

theorem Attribute.isWritable_of_reread {a : Attribute} (h : a.reread.IsWritable) : a.IsWritable := by
  refine ⟨h.name, h.noDeclaration, isAllowed_of_map_blankRead ?_⟩
  have hvalue := h.value
  rwa [Attribute.reread, String.toList_ofList] at hvalue

namespace Element

/-! ## Trees that are read -/

theorem name_reread (e : Element) : e.reread.name = e.name := by
  cases e
  rw [reread]

theorem attributes_reread (e : Element) : e.reread.attributes = e.attributes.map Attribute.reread := by
  cases e
  rw [reread]

theorem isNamespaceFree_reread {e : Element} (h : e.IsNamespaceFree) : e.reread.IsNamespaceFree := by
  refine ⟨e.name_reread ▸ h.name, fun a ha => ?_⟩
  rw [attributes_reread] at ha
  obtain ⟨b, hb, rfl⟩ := List.mem_map.1 ha
  exact h.attributes b hb

theorem isWritable_of_reread {e : Element} (h : e.reread.IsWritable) : e.IsWritable := by
  obtain ⟨name, attributes, text, tail, children⟩ := e
  rw [reread] at h
  refine ⟨h.plain, h.name, fun a ha => ?_, ?_, isAllowed_of_rereadText h.text,
    isAllowed_of_rereadText h.tail⟩
  · exact Attribute.isWritable_of_reread (h.attributes _ (List.mem_map_of_mem ha))
  · have hdistinct := h.distinct
    rwa [List.map_map] at hdistinct

mutual

/-- What a property of the nodes that are read says of the nodes that were written. -/
theorem everywhere_of_reread {P Q : Element → Prop} (h : ∀ e, P e.reread → Q e) :
    (e : Element) → e.reread.Everywhere P → e.Everywhere Q
  | ⟨name, attributes, text, tail, children⟩, he => by
    have hself := (everywhere_iff.1 he).1
    rw [reread] at he
    exact everywhere_iff.2 ⟨h _ hself, forall_everywhere_of_reread h children (everywhere_iff.1 he).2⟩

theorem forall_everywhere_of_reread {P Q : Element → Prop} (h : ∀ e, P e.reread → Q e) :
    (es : List Element) → (∀ e ∈ rereadAll es, e.Everywhere P) → ∀ e ∈ es, e.Everywhere Q
  | [], _ => fun _ hmem => absurd hmem List.not_mem_nil
  | e :: rest, hes => by
    rw [rereadAll] at hes
    obtain ⟨hfirst, hrest⟩ := List.forall_mem_cons.1 hes
    exact List.forall_mem_cons.2
      ⟨everywhere_of_reread h e hfirst, forall_everywhere_of_reread h rest hrest⟩

end

/-! ## Trees that can be written -/

theorem IsWritable.isNamespaceFree {e : Element} (h : e.IsWritable) : e.IsNamespaceFree := by
  refine ⟨by rw [h.plain]; rfl, fun a ha => ⟨(h.attributes a ha).name.noColon, fun hbrace => ?_⟩⟩
  exact absurd ((h.attributes a ha).name.isNameChar _ hbrace) (by decide)

/-- The tree without what stands behind it. -/
def alone (e : Element) : Element := { e with tail := none }

theorem markup_eq_alone_append (e : Element) : e.markup = e.alone.markup ++ textMarkup e.tail := by
  obtain ⟨name, attributes, text, tail, children⟩ := e
  have hnone : textMarkup none = [] := rfl
  rw [alone, markup, markup, hnone, List.append_nil]
  rfl

theorem alone_reread (e : Element) : e.reread.alone = e.alone.reread := by
  obtain ⟨name, attributes, text, tail, children⟩ := e
  rw [alone, alone, reread, reread]
  rfl

/-- No name in the tree is in a namespace, and the reader takes the markup for the tree itself: nothing
is lost but what markup does not keep, and the blanks behind the tree. -/
structure IsReadBack (e : Element) : Prop where
  free : e.Everywhere IsNamespaceFree
  again : ∀ file, parse file e.toXml = .ok e.reread.alone

/-- The root of the tree can be written, and nothing that counts is behind it. -/
structure IsWritableRoot (e : Element) : Prop where
  root : e.alone.IsWritable
  behind : skipMisc (textMarkup e.tail) = .ok []

theorem IsWritableRoot.withChildren {e : Element} (h : e.IsWritableRoot) (children : List Element) :
    (e.withChildren children).IsWritableRoot :=
  ⟨⟨h.root.plain, h.root.name, h.root.attributes, h.root.distinct, h.root.text, h.root.tail⟩, h.behind⟩

theorem isReadBack_iff {e : Element} :
    e.IsReadBack ↔ e.IsWritableRoot ∧ ∀ child ∈ e.children, child.Everywhere IsWritable := by
  constructor
  · rintro ⟨hfree, hagain⟩
    have hread := xml_parse_of_parse (hagain 0)
    rw [toXml_eq, String.toList_ofList, markup_eq_alone_append, alone_reread] at hread
    have hfree' : e.alone.Everywhere IsNamespaceFree := by
      obtain ⟨hself, hchildren⟩ := everywhere_iff.1 hfree
      exact everywhere_iff.2 ⟨⟨hself.name, hself.attributes⟩, hchildren⟩
    have hsound : e.alone.Everywhere fun node => node.IsNamespaceFree → node.IsWritable :=
      everywhere_of_reread
        (fun node h hnode => isWritable_of_reread (h (isNamespaceFree_reread hnode))) _
        (everywhere_of_parse hread).1
    have hwritable : e.alone.Everywhere IsWritable := fun node hmem =>
      hsound node hmem (hfree' node hmem)
    obtain ⟨hroot, hchildren⟩ := everywhere_iff.1 hwritable
    exact ⟨⟨hroot, ((parse_markup_append_iff hwritable rfl).1 hread).1⟩, hchildren⟩
  · rintro ⟨⟨hroot, hbehind⟩, hchildren⟩
    have hwritable : e.alone.Everywhere IsWritable := everywhere_iff.2 ⟨hroot, hchildren⟩
    have hself := hroot.isNamespaceFree
    refine ⟨everywhere_iff.2 ⟨⟨hself.name, hself.attributes⟩, fun child hmem node hnode =>
      (hchildren child hmem node hnode).isNamespaceFree⟩, fun file => ?_⟩
    rw [parse, toXml_eq, String.toList_ofList, markup_eq_alone_append,
      (parse_markup_append_iff hwritable rfl).2 ⟨hbehind, rfl⟩, alone_reread]
    rfl

theorem isReadBack_of_everywhere {e : Element} (h : e.Everywhere IsWritable) (htail : e.tail = none) :
    e.IsReadBack := by
  have halone : e.alone = e := by
    cases e
    cases htail
    rfl
  refine ⟨fun node hmem => (h node hmem).isNamespaceFree, fun file => ?_⟩
  rw [alone_reread, halone, parse, toXml_eq, String.toList_ofList, parse_markup h htail]
  rfl

end Element

end Docweave
