import Docweave.Proofs.Xml.Escaped
import Docweave.Tree.Printer

set_option autoImplicit false

/-! # A tree after it was written and read again

`Element.reread` is what the markup of a tree gives: in the values of its attributes tabs and carriage
returns become spaces, in its texts line ends are made line feeds, and a text without characters is
none. `reread_eq_self_iff` says which trees stay as they are. -/

namespace Docweave

/-! ## Reading again -/

/-- What is read in place of an optional text. -/
def rereadText (text : Option String) : Option String :=
  let characters := (text.getD "").toList
  if characters.isEmpty then none else some (.ofList (lineEndsRead false characters))

/-- What is read in place of an attribute. -/
def Attribute.reread (a : Attribute) : Attribute :=
  ⟨a.name, .ofList (a.value.toList.map blankRead)⟩

namespace Element

mutual

/-- What is read in place of an element. -/
def reread : Element → Element
  | ⟨name, attributes, text, tail, children⟩ =>
    ⟨name, attributes.map Attribute.reread, rereadText text, rereadText tail, rereadAll children⟩

/-- What is read in place of elements in a row. -/
def rereadAll : List Element → List Element
  | [] => []
  | e :: rest => e.reread :: rereadAll rest

end

end Element

/-! ## What stays as it is -/

/-- The value comes back as it is: it holds no tab and no carriage return. -/
def Attribute.IsKept (a : Attribute) : Prop := '\t' ∉ a.value.toList ∧ '\r' ∉ a.value.toList

/-- The text comes back as it is: it has characters, and each carriage return among them stands just
before a character that is written as a reference, or at the end and just after one. -/
def IsKeptText (text : String) : Prop := text ≠ "" ∧ ReturnsAreKept false text.toList

theorem Attribute.reread_eq_self_iff {a : Attribute} : a.reread = a ↔ a.IsKept := by
  obtain ⟨name, value⟩ := a
  have hvalue : String.ofList (value.toList.map blankRead) = value ↔
      value.toList.map blankRead = value.toList := by
    rw [← String.toList_inj, String.toList_ofList]
  rw [reread, mk.injEq, hvalue, map_blankRead_eq_self_iff]
  exact and_iff_right rfl

theorem rereadText_eq_self_iff {text : Option String} :
    rereadText text = text ↔ ∀ s ∈ text, IsKeptText s := by
  cases text with
  | none => simp [rereadText]
  | some s =>
    have hsame : String.ofList (lineEndsRead false s.toList) = s ↔ ReturnsAreKept false s.toList := by
      rw [← lineEndsRead_eq_self_iff, ← String.toList_inj, String.toList_ofList]
    have hforall : (∀ t ∈ some s, IsKeptText t) ↔ IsKeptText s := by simp
    rw [hforall, IsKeptText, ← hsame, rereadText]
    by_cases hempty : s = ""
    · simp [hempty]
    · have hchars : s.toList.isEmpty = false := by simpa using hempty
      simp [hchars, hempty]

namespace Element

/-- What stands at the element itself comes back as it is. -/
structure IsKept (e : Element) : Prop where
  attributes : ∀ a ∈ e.attributes, a.IsKept
  text : ∀ s ∈ e.text, IsKeptText s
  tail : ∀ s ∈ e.tail, IsKeptText s

mutual

theorem reread_eq_self_iff : (e : Element) → (e.reread = e ↔ e.Everywhere IsKept)
  | ⟨name, attributes, text, tail, children⟩ => by
    have hattributes : attributes.map Attribute.reread = attributes ↔
        ∀ a ∈ attributes, a.IsKept := by
      have hmap := List.map_inj_left (f := Attribute.reread) (g := id) (l := attributes)
      rw [List.map_id] at hmap
      exact hmap.trans (forall₂_congr fun a _ => Attribute.reread_eq_self_iff)
    rw [reread, mk.injEq, hattributes, rereadText_eq_self_iff, rereadText_eq_self_iff,
      rereadAll_eq_self_iff children, everywhere_iff]
    exact ⟨fun ⟨_, ha, htext, htail, hchildren⟩ => ⟨⟨ha, htext, htail⟩, hchildren⟩,
      fun ⟨⟨ha, htext, htail⟩, hchildren⟩ => ⟨rfl, ha, htext, htail, hchildren⟩⟩

theorem rereadAll_eq_self_iff :
    (es : List Element) → (rereadAll es = es ↔ ∀ e ∈ es, e.Everywhere IsKept)
  | [] => by simp [rereadAll]
  | e :: rest => by
    rw [rereadAll, List.cons.injEq, reread_eq_self_iff e, rereadAll_eq_self_iff rest,
      List.forall_mem_cons]

end

end Element

end Docweave
