import Docweave.Path.TopDown
import Mathlib.Data.List.Sort

set_option autoImplicit false

/-! # Document order

Document order is the order in which the start tags of a document stand: a node comes before
everything below it, and before everything below the siblings that follow it. `Element.walk` lists a
tree in this order, the root first; `inDocumentOrder_iff` says what it means for a list of nodes to
come in this order. Nodes are told apart by their ascents, the child positions that lead to them, the
last one first. -/

namespace Docweave

/-! ## Two places in a tree -/

/-- The ways down to two nodes part somewhere, and the way to `a` goes on to the earlier child. -/
def LeftOf (a b : List Nat) : Prop :=
  ∃ parent i j, i < j ∧ i :: parent <:+ a ∧ j :: parent <:+ b

/-- The start tag of `a` stands before that of `b`: `b` is below `a`, or to the right of it. -/
def Earlier (a b : List Nat) : Prop := a <:+ b ∧ a ≠ b ∨ LeftOf a b

theorem eq_of_cons_isSuffix {i j : Nat} {parent a : List Nat} (hi : i :: parent <:+ a)
    (hj : j :: parent <:+ a) : i = j := by
  by_contra hne
  rcases List.suffix_or_suffix_of_suffix hi hj with h | h
  · exact not_isSuffix_cons_cons parent hne h
  · exact not_isSuffix_cons_cons parent (Ne.symm hne) h

/-- A node above another is above or beside the parent of that one. -/
theorem isSuffix_of_isSuffix_cons {a parent : List Nat} {i : Nat} (h : a <:+ i :: parent)
    (hne : a ≠ i :: parent) : a <:+ parent :=
  (List.suffix_cons_iff.1 h).resolve_left hne

namespace LeftOf

variable {a a' b b' : List Nat}

/-- What is below the left one of two nodes is left of what is below the right one. -/
theorem mono (h : LeftOf a b) (ha : a <:+ a') (hb : b <:+ b') : LeftOf a' b' := by
  obtain ⟨parent, i, j, hij, hi, hj⟩ := h
  exact ⟨parent, i, j, hij, hi.trans ha, hj.trans hb⟩

theorem not_isSuffix (h : LeftOf a b) : ¬ a <:+ b := by
  obtain ⟨parent, i, j, hij, hi, hj⟩ := h
  intro hab
  exact Nat.ne_of_lt hij (eq_of_cons_isSuffix (hi.trans hab) hj)

theorem not_isSuffix' (h : LeftOf a b) : ¬ b <:+ a := by
  obtain ⟨parent, i, j, hij, hi, hj⟩ := h
  intro hba
  exact Nat.ne_of_lt hij (eq_of_cons_isSuffix hi (hj.trans hba))

theorem asymm (h : LeftOf a b) : ¬ LeftOf b a := by
  obtain ⟨parent, i, j, hij, hia, hjb⟩ := h
  rintro ⟨other, k, l, hkl, hkb, hla⟩
  -- the two forks are the same: otherwise the ways would still be together at the lower one
  rcases Nat.lt_trichotomy parent.length other.length with hlen | hlen | hlen
  · have hi : i :: parent <:+ other :=
      List.suffix_of_suffix_length_le hia ((List.suffix_cons l other).trans hla) (Nat.succ_le_of_lt hlen)
    have hj : j :: parent <:+ other :=
      List.suffix_of_suffix_length_le hjb ((List.suffix_cons k other).trans hkb) (Nat.succ_le_of_lt hlen)
    exact Nat.ne_of_lt hij (eq_of_cons_isSuffix hi hj)
  · have hpo : parent = other :=
      (List.suffix_of_suffix_length_le ((List.suffix_cons i parent).trans hia)
        ((List.suffix_cons l other).trans hla) hlen.le).eq_of_length hlen
    subst hpo
    have hil : i = l := eq_of_cons_isSuffix hia hla
    have hjk : j = k := eq_of_cons_isSuffix hjb hkb
    omega
  · have hl : l :: other <:+ parent :=
      List.suffix_of_suffix_length_le hla ((List.suffix_cons i parent).trans hia)
        (Nat.succ_le_of_lt hlen)
    have hk : k :: other <:+ parent :=
      List.suffix_of_suffix_length_le hkb ((List.suffix_cons j parent).trans hjb)
        (Nat.succ_le_of_lt hlen)
    exact Nat.ne_of_lt hkl (eq_of_cons_isSuffix hk hl)

end LeftOf

/-- Of two ways down one goes on from the other, or they part somewhere. -/
theorem isPrefix_or_fork (p q : List Nat) :
    p <+: q ∨ q <+: p ∨ ∃ c i j, i ≠ j ∧ c ++ [i] <+: p ∧ c ++ [j] <+: q := by
  induction p generalizing q with
  | nil => exact .inl List.nil_prefix
  | cons x p ih =>
    cases q with
    | nil => exact .inr (.inl List.nil_prefix)
    | cons y q =>
      by_cases hxy : x = y
      · subst hxy
        rcases ih q with h | h | ⟨c, i, j, hij, hi, hj⟩
        · exact .inl ((List.prefix_cons_inj x).2 h)
        · exact .inr (.inl ((List.prefix_cons_inj x).2 h))
        · exact .inr (.inr ⟨x :: c, i, j, hij, (List.prefix_cons_inj x).2 hi,
            (List.prefix_cons_inj x).2 hj⟩)
      · exact .inr (.inr ⟨[], x, y, hxy, by simp, by simp⟩)

/-- Of two nodes one is above the other, or their ways part. -/
theorem isSuffix_or_leftOf (a b : List Nat) :
    a <:+ b ∨ b <:+ a ∨ LeftOf a b ∨ LeftOf b a := by
  -- ascents are read from their ends, so the ways down are their reverses
  rcases isPrefix_or_fork a.reverse b.reverse with h | h | ⟨c, i, j, hij, hi, hj⟩
  · exact .inl (List.reverse_prefix.1 h)
  · exact .inr (.inl (List.reverse_prefix.1 h))
  · have hi' : i :: c.reverse <:+ a := by rw [← List.reverse_prefix]; simpa using hi
    have hj' : j :: c.reverse <:+ b := by rw [← List.reverse_prefix]; simpa using hj
    rcases Nat.lt_or_gt_of_ne hij with hlt | hlt
    · exact .inr (.inr (.inl ⟨c.reverse, i, j, hlt, hi', hj'⟩))
    · exact .inr (.inr (.inr ⟨c.reverse, j, i, hlt, hj', hi'⟩))

namespace Earlier

variable {a b : List Nat}

theorem irrefl (a : List Nat) : ¬ Earlier a a := by
  rintro (h | h)
  · exact h.2 rfl
  · exact h.not_isSuffix (List.suffix_refl a)

theorem asymm (h : Earlier a b) : ¬ Earlier b a := by
  rintro (hba | hba)
  · rcases h with hab | hab
    · exact hab.2 (hab.1.eq_of_length (Nat.le_antisymm hab.1.length_le hba.1.length_le))
    · exact hab.not_isSuffix' hba.1
  · rcases h with hab | hab
    · exact hba.not_isSuffix' hab.1
    · exact hab.asymm hba

theorem not_isSuffix (h : Earlier a b) : ¬ b <:+ a := by
  intro hba
  by_cases heq : a = b
  · subst heq
    exact irrefl a h
  · exact h.asymm (.inl ⟨hba, Ne.symm heq⟩)

end Earlier

/-- The start tag of one node stands before that of another. -/
def Located.Precedes (a b : Located) : Prop := Earlier a.ascent b.ascent

instance : Std.Irrefl Located.Precedes := ⟨fun a => Earlier.irrefl a.ascent⟩

instance : Std.Antisymm Located.Precedes := ⟨fun _ _ hab hba => absurd hba hab.asymm⟩

/-! ## The walk through a tree -/

namespace Element

mutual

/-- An element at the end of `ascent` with everything below it, in document order. -/
def walk (ascent : List Nat) : Element → List Located
  | e@⟨_, _, _, _, children⟩ => ⟨ascent, e⟩ :: walkAll ascent 0 children

/-- Everything in a list of children, the first of them at position `first` below `ascent`. -/
def walkAll (ascent : List Nat) : Nat → List Element → List Located
  | _, [] => []
  | first, e :: rest => walk (first :: ascent) e ++ walkAll ascent (first + 1) rest

end

/-- All nodes of a tree in document order. -/
def nodes (e : Element) : List Located := walk [] e

theorem walk_eq (ascent : List Nat) (e : Element) :
    walk ascent e = ⟨ascent, e⟩ :: walkAll ascent 0 e.children := by
  cases e; rfl

mutual

/-- The walk lists an element and then its descendants. -/
theorem map_element_walk (ascent : List Nat) :
    (e : Element) → (walk ascent e).map (·.element) = e :: e.descendants
  | ⟨_, _, _, _, children⟩ => by
    rw [walk, descendants_eq, List.map_cons, map_element_walkAll ascent 0 children]

theorem map_element_walkAll (ascent : List Nat) (first : Nat) :
    (es : List Element) → (walkAll ascent first es).map (·.element) = preorder es
  | [] => rfl
  | e :: rest => by
    rw [walkAll, preorder, List.map_append, map_element_walk (first :: ascent) e,
      map_element_walkAll ascent (first + 1) rest, List.cons_append]

end

mutual

/-- The groups of children are the children of the nodes met on the walk. -/
theorem childGroups_eq (ascent : List Nat) :
    (e : Element) → childGroups ascent e = (walk ascent e).map Located.children
  | ⟨_, _, _, _, children⟩ => by
    rw [childGroups, walk, List.map_cons, childGroupsAll_eq ascent 0 children]
    rfl

theorem childGroupsAll_eq (ascent : List Nat) (first : Nat) :
    (es : List Element) → childGroupsAll ascent first es = (walkAll ascent first es).map Located.children
  | [] => rfl
  | e :: rest => by
    rw [childGroupsAll, walkAll, List.map_append, childGroups_eq (first :: ascent) e,
      childGroupsAll_eq ascent (first + 1) rest]

end

/-! ### What the walk meets -/

mutual

theorem isSuffix_of_mem_walk {ascent : List Nat} {node : Located} :
    (e : Element) → node ∈ walk ascent e → ascent <:+ node.ascent
  | ⟨_, _, _, _, children⟩, h => by
    rw [walk] at h
    rcases List.mem_cons.1 h with rfl | h
    · exact List.suffix_refl ascent
    · obtain ⟨i, _, hi⟩ := isSuffix_of_mem_walkAll children h
      exact (List.suffix_cons i ascent).trans hi

theorem isSuffix_of_mem_walkAll {ascent : List Nat} {first : Nat} {node : Located} :
    (es : List Element) → node ∈ walkAll ascent first es →
      ∃ i, first ≤ i ∧ i :: ascent <:+ node.ascent
  | [], h => by simp [walkAll] at h
  | e :: rest, h => by
    rw [walkAll, List.mem_append] at h
    rcases h with h | h
    · exact ⟨first, Nat.le_refl first, isSuffix_of_mem_walk e h⟩
    · obtain ⟨i, hi, hs⟩ := isSuffix_of_mem_walkAll rest h
      exact ⟨i, by omega, hs⟩

end

mutual

/-- The walk meets the nodes in document order. -/
theorem pairwise_walk (ascent : List Nat) :
    (e : Element) → (walk ascent e).Pairwise Located.Precedes
  | ⟨_, _, _, _, children⟩ => by
    rw [walk]
    refine .cons (fun node hn => ?_) (pairwise_walkAll ascent 0 children)
    obtain ⟨i, _, hi⟩ := isSuffix_of_mem_walkAll children hn
    refine .inl ⟨(List.suffix_cons i ascent).trans hi, fun heq => ?_⟩
    have hlen := hi.length_le
    simp only [← heq, List.length_cons] at hlen
    omega

theorem pairwise_walkAll (ascent : List Nat) (first : Nat) :
    (es : List Element) → (walkAll ascent first es).Pairwise Located.Precedes
  | [] => .nil
  | e :: rest => by
    rw [walkAll]
    refine List.pairwise_append.2 ⟨pairwise_walk (first :: ascent) e,
      pairwise_walkAll ascent (first + 1) rest, fun a ha b hb => ?_⟩
    obtain ⟨j, hj, hb⟩ := isSuffix_of_mem_walkAll rest hb
    exact .inr ⟨ascent, first, j, by omega, isSuffix_of_mem_walk e ha, hb⟩

end

end Element

/-! ### Children -/

theorem pairwise_locateChildren (ascent : List Nat) (first : Nat) (es : List Element) :
    (locateChildren ascent first es).Pairwise fun a b =>
      ∃ i j, i < j ∧ a.ascent = i :: ascent ∧ b.ascent = j :: ascent := by
  induction es generalizing first with
  | nil => exact .nil
  | cons e rest ih =>
    refine .cons (fun node hn => ?_) (ih (first + 1))
    obtain ⟨j, hj, ha⟩ := ascent_of_mem_locateChildren hn
    exact ⟨first, j, by omega, rfl, ha⟩

theorem pairwise_precedes_locateChildren (ascent : List Nat) (first : Nat) (es : List Element) :
    (locateChildren ascent first es).Pairwise Located.Precedes := by
  refine (pairwise_locateChildren ascent first es).imp ?_
  rintro a b ⟨i, j, hij, ha, hb⟩
  exact .inr ⟨ascent, i, j, hij, ha ▸ List.suffix_refl _, hb ▸ List.suffix_refl _⟩

theorem mem_locateChildren_iff {ascent : List Nat} {first : Nat} {es : List Element}
    {node : Located} :
    node ∈ locateChildren ascent first es ↔
      ∃ i, node.ascent = (first + i) :: ascent ∧ es[i]? = some node.element := by
  induction es generalizing first with
  | nil => simp [locateChildren]
  | cons e rest ih =>
    rw [locateChildren, List.mem_cons, ih]
    constructor
    · rintro (rfl | ⟨i, ha, he⟩)
      · exact ⟨0, rfl, rfl⟩
      · exact ⟨i + 1, by rw [ha]; congr 1; omega, by simpa using he⟩
    · rintro ⟨i, ha, he⟩
      cases i with
      | zero =>
        obtain ⟨ascent', element⟩ := node
        simp only [Nat.add_zero] at ha
        simp only [List.getElem?_cons_zero, Option.some.injEq] at he
        exact .inl (by rw [ha, he])
      | succ i => exact .inr ⟨i, by rw [ha]; congr 1; omega, by simpa using he⟩

namespace Element

mutual

/-- The walk meets exactly the nodes of the tree, each at its place. -/
theorem mem_walk_iff {ascent : List Nat} {node : Located} :
    (e : Element) → (node ∈ walk ascent e ↔
      ∃ place, node.ascent = place.reverse ++ ascent ∧ e.at? place = some node.element)
  | ⟨_, _, _, _, children⟩ => by
    rw [walk, List.mem_cons, mem_walkAll_iff children]
    constructor
    · rintro (rfl | ⟨i, child, place, hc, ha, hat⟩)
      · exact ⟨[], rfl, rfl⟩
      · exact ⟨i :: place, by simpa using ha, by simp [at?, hc, hat]⟩
    · rintro ⟨place, ha, hat⟩
      cases place with
      | nil =>
        obtain ⟨ascent', element⟩ := node
        simp only [List.reverse_nil, List.nil_append] at ha
        simp only [at?, Option.some.injEq] at hat
        exact .inl (by rw [ha, hat])
      | cons i place =>
        obtain ⟨child, hc, hat⟩ := Option.bind_eq_some_iff.1 hat
        exact .inr ⟨i, child, place, hc, by simpa using ha, hat⟩

theorem mem_walkAll_iff {ascent : List Nat} {first : Nat} {node : Located} :
    (es : List Element) → (node ∈ walkAll ascent first es ↔
      ∃ i child place, es[i]? = some child ∧ node.ascent = place.reverse ++ (first + i) :: ascent ∧
        child.at? place = some node.element)
  | [] => by simp [walkAll]
  | e :: rest => by
    rw [walkAll, List.mem_append, mem_walk_iff e, mem_walkAll_iff rest]
    constructor
    · rintro (⟨place, ha, hat⟩ | ⟨i, child, place, hc, ha, hat⟩)
      · exact ⟨0, e, place, rfl, ha, hat⟩
      · exact ⟨i + 1, child, place, by simpa using hc, by rw [ha]; congr 2; omega, hat⟩
    · rintro ⟨i, child, place, hc, ha, hat⟩
      cases i with
      | zero =>
        simp only [List.getElem?_cons_zero, Option.some.injEq] at hc
        exact .inl ⟨place, ha, hc ▸ hat⟩
      | succ i =>
        exact .inr ⟨i, child, place, by simpa using hc, by rw [ha]; congr 2; omega, hat⟩

end

/-- The nodes of a tree are its elements, each at its place. -/
theorem mem_nodes_iff {e : Element} {node : Located} :
    node ∈ e.nodes ↔ e.at? node.place = some node.element := by
  rw [nodes, mem_walk_iff]
  constructor
  · rintro ⟨place, ha, hat⟩
    rwa [Located.place, ha, List.append_nil, List.reverse_reverse]
  · intro hat
    exact ⟨node.place, by simp [Located.place], hat⟩

/-- A place below a place is reached in two parts. -/
theorem at?_append (e : Element) (place below : Location) :
    e.at? (place ++ below) = (e.at? place).bind (·.at? below) := by
  induction place generalizing e with
  | nil => rfl
  | cons i place ih =>
    rw [List.cons_append, at?, at?, Option.bind_assoc]
    exact congrArg _ (funext ih)

/-- The nodes after the root are the children of nodes. -/
theorem mem_tail_nodes_iff {e : Element} {node : Located} :
    node ∈ e.nodes.tail ↔ ∃ parent ∈ e.nodes, node ∈ parent.children := by
  have htail : node ∈ e.nodes.tail ↔ node ∈ e.nodes ∧ node.ascent ≠ [] := by
    rw [nodes, walk_eq, List.tail_cons, List.mem_cons]
    constructor
    · intro h
      obtain ⟨i, _, hi⟩ := isSuffix_of_mem_walkAll e.children h
      exact ⟨.inr h, fun heq => by simp [heq] at hi⟩
    · rintro ⟨rfl | h, hne⟩
      · exact absurd rfl hne
      · exact h
  rw [htail, mem_nodes_iff]
  constructor
  · rintro ⟨hat, hne⟩
    obtain ⟨i, above, ha⟩ := List.exists_cons_of_ne_nil hne
    rw [Located.place, ha, List.reverse_cons, at?_append] at hat
    obtain ⟨parent, hp, hc⟩ := Option.bind_eq_some_iff.1 hat
    refine ⟨⟨above, parent⟩, mem_nodes_iff.2 hp, mem_locateChildren_iff.2 ⟨i, by simpa using ha, ?_⟩⟩
    obtain ⟨child, hchild, heq⟩ := Option.bind_eq_some_iff.1 hc
    rw [hchild, ← heq]
    rfl
  · rintro ⟨parent, hp, hn⟩
    obtain ⟨i, ha, hc⟩ := mem_locateChildren_iff.1 hn
    refine ⟨?_, fun heq => by simp [heq] at ha⟩
    rw [Located.place, ha, List.reverse_cons, at?_append, ← Located.place, mem_nodes_iff.1 hp]
    simp [at?, hc]

end Element

/-! ## Lists in document order -/

/-- Nodes of a tree come in document order: as in a walk through the tree, some left out. -/
def InDocumentOrder (e : Element) (found : List Located) : Prop := found.Sublist e.nodes

/-- Nodes of a tree come in document order if each comes before the later ones. -/
theorem inDocumentOrder_iff {e : Element} {found : List Located} (h : ∀ node ∈ found, node ∈ e.nodes) :
    InDocumentOrder e found ↔ found.Pairwise Located.Precedes := by
  have hwalk : e.nodes.Pairwise Located.Precedes := Element.pairwise_walk [] e
  refine ⟨fun hs => hwalk.sublist hs, fun hp => ?_⟩
  exact List.sublist_of_subperm_of_pairwise (List.subperm_of_subset hp.nodup h) hp hwalk

end Docweave
