import Docweave.Proofs.Tree.Reread
import Docweave.Xml.Chars

set_option autoImplicit false

/-! # Trees laid out on lines

A copied element has no text of its own; its content, if there is any, is followed by a line feed.
`Element.laidOut` is the tree whose markup this is. It has the same skeleton as the copied one, and keeps
it when it is read again. -/

namespace Docweave

/-! ## Skeletons -/

/-- The names in a tree and the way they are nested. -/
inductive Skeleton where
  /-- An element with the names of its attributes. -/
  | node (name : QName) (attributes : List String) (children : List Skeleton)

namespace Element

mutual

/-- What is left of an element without its texts and the values of its attributes. -/
def skeleton : Element → Skeleton
  | ⟨name, attributes, _, _, children⟩ => .node name (attributes.map (·.name)) (skeletons children)

/-- The skeletons of elements in a row. -/
def skeletons : List Element → List Skeleton
  | [] => []
  | e :: rest => e.skeleton :: skeletons rest

end

mutual

theorem skeleton_reread : (e : Element) → e.reread.skeleton = e.skeleton
  | ⟨name, attributes, text, tail, children⟩ => by
    have hnames : (attributes.map Attribute.reread).map (·.name) = attributes.map (·.name) := by
      rw [List.map_map]
      rfl
    rw [reread, skeleton, skeleton, hnames, skeletons_rereadAll children]

theorem skeletons_rereadAll : (es : List Element) → skeletons (rereadAll es) = skeletons es
  | [] => rfl
  | e :: rest => by rw [rereadAll, skeletons, skeletons, skeleton_reread e, skeletons_rereadAll rest]

end

/-! ## Lines -/

mutual

/-- The element as it is copied, with a given tail. -/
def laidOut (tail : Option String) : Element → Element
  | ⟨name, attributes, _, _, children⟩ => ⟨name, attributes, none, tail, laidOutAll children⟩

/-- Elements as they are copied inside another one, whose end tag comes after a line feed. -/
def laidOutAll : List Element → List Element
  | [] => []
  | e :: rest => e.laidOut (if rest.isEmpty then some "\n" else none) :: laidOutAll rest

end

mutual

theorem skeleton_laidOut (tail : Option String) : (e : Element) → (e.laidOut tail).skeleton = e.skeleton
  | ⟨name, attributes, text, oldTail, children⟩ => by
    rw [laidOut, skeleton, skeleton, skeletons_laidOutAll children]

theorem skeletons_laidOutAll : (es : List Element) → skeletons (laidOutAll es) = skeletons es
  | [] => rfl
  | e :: rest => by
    rw [laidOutAll, skeletons, skeletons, skeleton_laidOut _ e, skeletons_laidOutAll rest]

end

/-- The tail is written behind the element. -/
theorem markup_laidOut (tail : Option String) (e : Element) :
    (e.laidOut tail).markup = (e.laidOut none).markup ++ textMarkup tail := by
  cases e with
  | mk name attributes text oldTail children =>
    rw [laidOut, laidOut, markup, markup]
    exact (List.append_assoc _ [] (textMarkup tail)).symm

/-- Inside an element the last line ends before the end tag. -/
theorem markupAll_laidOutAll {es : List Element} (h : es ≠ []) :
    markupAll (laidOutAll es) = markupAll (es.map (laidOut none)) ++ ['\n'] := by
  induction es with
  | nil => exact absurd rfl h
  | cons e rest ih =>
    rw [laidOutAll, markupAll, List.map_cons, markupAll, markup_laidOut]
    cases rest with
    | nil => rw [laidOutAll, List.map_nil, markupAll, List.append_nil, List.append_nil]; rfl
    | cons next rest =>
      have hnone : textMarkup none = [] := rfl
      rw [ih (List.cons_ne_nil _ _)]
      simp only [List.isEmpty_cons, Bool.false_eq_true, if_false, hnone, List.append_nil,
        List.append_assoc]

/-! ## Texts -/

/-- All texts at the element itself are white space. -/
structure IsSpaced (e : Element) : Prop where
  text : ∀ s ∈ e.text, ∀ c ∈ s.toList, Xml.isSpace c = true
  tail : ∀ s ∈ e.tail, ∀ c ∈ s.toList, Xml.isSpace c = true

end Element

theorem isSpace_of_mem_rereadText {text : Option String} (h : text = none ∨ text = some "\n") :
    ∀ s ∈ rereadText text, ∀ c ∈ s.toList, Xml.isSpace c = true := by
  rcases h with rfl | rfl
  · exact fun s hs => nomatch hs
  · intro s hs
    have hline : rereadText (some "\n") = some "\n" := by decide
    rw [hline] at hs
    cases hs
    intro c hc
    rw [List.mem_singleton.1 hc]
    rfl

namespace Element

mutual

theorem everywhere_isSpaced {tail : Option String} (htail : tail = none ∨ tail = some "\n") :
    (e : Element) → (e.laidOut tail).reread.Everywhere IsSpaced
  | ⟨name, attributes, text, oldTail, children⟩ => by
    rw [laidOut, reread]
    exact everywhere_iff.2 ⟨⟨isSpace_of_mem_rereadText (.inl rfl), isSpace_of_mem_rereadText htail⟩,
      everywhere_isSpaced_laidOutAll children⟩

theorem everywhere_isSpaced_laidOutAll :
    (es : List Element) → ∀ e ∈ rereadAll (laidOutAll es), e.Everywhere IsSpaced
  | [] => fun _ h => absurd h List.not_mem_nil
  | e :: rest => by
    rw [laidOutAll, rereadAll, List.forall_mem_cons]
    refine ⟨everywhere_isSpaced ?_ e, everywhere_isSpaced_laidOutAll rest⟩
    split
    · exact .inr rfl
    · exact .inl rfl

end

end Element

end Docweave
