set_option autoImplicit false

/-! # Element trees

An element has a name, attributes in document order, the text before its first child, its children,
and a tail: the text between its end tag and the next tag. An absent text and an empty one are told
apart. -/

namespace Docweave

/-! ## Names -/

/-- A qualified name. The prefix is only kept for display. -/
structure QName where
  /-- The URI of the namespace, if the name is in one. -/
  uri : Option String
  /-- The prefix that the name is shown with. -/
  tagPrefix : Option String
  /-- The local part. -/
  localPart : String
deriving DecidableEq, Repr

namespace QName

/-- A name in no namespace. -/
def plain (name : String) : QName := ⟨none, none, name⟩

/-- The name is `localPart` in the namespace `uri`. -/
def isIn (name : QName) (uri localPart : String) : Bool :=
  name.uri == some uri && name.localPart == localPart

/-- The name as it is written: the prefix, if any, and a colon before the local part. -/
def display (name : QName) : String :=
  match name.tagPrefix with
  | some lead => lead ++ ":" ++ name.localPart
  | none => name.localPart

end QName

/-! ## Elements -/

/-- A named value on an element. -/
structure Attribute where
  /-- The name as it is written. -/
  name : String
  /-- The value, with references resolved. -/
  value : String
deriving DecidableEq, Repr

/-- An element with everything below it. -/
structure Element where
  /-- The name of the element. -/
  name : QName
  /-- The attributes in document order. -/
  attributes : List Attribute
  /-- The text before the first child. -/
  text : Option String
  /-- The text after the end tag. -/
  tail : Option String
  /-- The children in document order. -/
  children : List Element
deriving BEq, Repr

namespace Element

/-- An empty element with a name in no namespace. -/
def ofTag (tag : String) : Element := ⟨.plain tag, [], none, none, []⟩

/-- An element that holds a text. -/
def ofText (tag text : String) : Element := { ofTag tag with text := some text }

/-- An element that holds other elements. -/
def ofChildren (tag : String) (children : List Element) : Element :=
  { ofTag tag with children := children }

/-- There are no children. -/
def isLeaf (e : Element) : Bool := e.children.isEmpty

theorem isLeaf_congr {e e' : Element} (h : e.children.length = e'.children.length) :
    e.isLeaf = e'.isLeaf := by
  unfold isLeaf
  rw [Bool.eq_iff_iff, List.isEmpty_iff_length_eq_zero, List.isEmpty_iff_length_eq_zero, h]

/-- The text before the first child, empty if there is none. -/
def textOrEmpty (e : Element) : String := e.text.getD ""

/-- The value of the first attribute called `name`. -/
def attr? (e : Element) (name : String) : Option String :=
  (e.attributes.find? (·.name == name)).map (·.value)

/-- The element with one more child, at the end. -/
def append (e child : Element) : Element := { e with children := e.children ++ [child] }

/-- The element with other children. -/
def withChildren (e : Element) (children : List Element) : Element := { e with children := children }

@[simp] theorem children_withChildren (e : Element) (children : List Element) :
    (e.withChildren children).children = children := rfl

@[simp] theorem withChildren_children (e : Element) : e.withChildren e.children = e := by
  cases e
  rfl

@[simp] theorem attr?_withChildren (e : Element) (children : List Element) (name : String) :
    (e.withChildren children).attr? name = e.attr? name := rfl

end Element

/-- Attributes with the first one called `name` given a new value in place, or a new one at the
end. -/
def setAttribute (name value : String) : List Attribute → List Attribute
  | [] => [⟨name, value⟩]
  | a :: rest =>
    if a.name = name then ⟨name, value⟩ :: rest else a :: setAttribute name value rest

namespace Element

/-- The element with an attribute set. -/
def setAttr (e : Element) (name value : String) : Element :=
  { e with attributes := setAttribute name value e.attributes }

mutual

/-- All elements below an element, in document order. -/
def descendants : Element → List Element
  | ⟨_, _, _, _, children⟩ => preorder children

/-- Each element of a list followed by its descendants. -/
def preorder : List Element → List Element
  | [] => []
  | e :: rest => e :: e.descendants ++ preorder rest

end

theorem descendants_eq (e : Element) : e.descendants = preorder e.children := by
  cases e; rfl

/-- An element and everything below it have the property. -/
def Everywhere (P : Element → Prop) (e : Element) : Prop := ∀ node ∈ e :: e.descendants, P node

instance {P : Element → Prop} [DecidablePred P] (e : Element) : Decidable (e.Everywhere P) :=
  inferInstanceAs (Decidable (∀ node ∈ e :: e.descendants, P node))

theorem mem_preorder_iff {node : Element} {es : List Element} :
    node ∈ preorder es ↔ ∃ e ∈ es, node ∈ e :: e.descendants := by
  induction es with
  | nil => simp [preorder]
  | cons e rest ih => simp [preorder, ih, or_assoc]

theorem everywhere_iff {P : Element → Prop} {e : Element} :
    e.Everywhere P ↔ P e ∧ ∀ child ∈ e.children, child.Everywhere P := by
  unfold Everywhere
  rw [List.forall_mem_cons, descendants_eq]
  refine and_congr_right fun _ => ⟨fun h child hchild node hnode => ?_, fun h node hnode => ?_⟩
  · exact h node (mem_preorder_iff.2 ⟨child, hchild, hnode⟩)
  · obtain ⟨child, hchild, hmem⟩ := mem_preorder_iff.1 hnode
    exact h child hchild node hmem

/-- What holds everywhere in a tree holds everywhere below each of its nodes. -/
theorem Everywhere.of_mem {P : Element → Prop} {e node : Element} (h : e.Everywhere P)
    (hmem : node ∈ e :: e.descendants) : node.Everywhere P := by
  rcases List.mem_cons.1 hmem with rfl | hbelow
  · exact h
  · rw [descendants_eq] at hbelow
    obtain ⟨child, hchild, hnode⟩ := mem_preorder_iff.1 hbelow
    exact ((everywhere_iff.1 h).2 child hchild).of_mem hnode
termination_by sizeOf e
decreasing_by
  cases e
  have := List.sizeOf_lt_of_mem hchild
  simp only [Element.mk.sizeOf_spec] at *
  omega

end Element

/-- Setting an attribute keeps the names of the others, in order. -/
theorem map_name_setAttribute_of_mem {name value : String} {as : List Attribute}
    (h : name ∈ as.map (·.name)) :
    (setAttribute name value as).map (·.name) = as.map (·.name) := by
  induction as with
  | nil => simp at h
  | cons a rest ih =>
    by_cases ha : a.name = name
    · simp [setAttribute, ha]
    · rw [List.map_cons, List.mem_cons] at h
      have hrest : name ∈ rest.map (·.name) := h.resolve_left fun he => ha he.symm
      simp [setAttribute, ha, ih hrest]

end Docweave
