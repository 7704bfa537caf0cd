import Docweave.Proofs.Model.Course

set_option autoImplicit false

/-! # What a node sees of the nodes around it

The query path and the depth are set by the directives on the way down to a node and put back after
them. `context_of_enters` says that an evaluation follows its course, and that each node of the course
finds them as the nodes between the root and it determine them, whatever was evaluated before: the path is
that of the innermost query around the node, and the depth counts the copied elements, up to and with the
node, whose parents are models, queries or record directives. -/

namespace Docweave

open Eval

/-! ## The way up to the root -/

namespace Element

/-- The nodes from a place up to the root, the one at the place first. -/
def upward (model : Element) (ascent : List Nat) : List Element :=
  ascent.tails.filterMap fun above => model.at? above.reverse

/-- The path of the first query in a line of nodes; empty if there is none. -/
def queryPathIn (line : List Element) : String :=
  (line.find? (·.kind == .query)).elim "" queryPath

/-- How many nodes of a line are copied elements whose parent, the next one in the line, takes them
one level deeper. -/
def depthIn (line : List Element) : Nat :=
  (line.zip line.tail).countP fun (node, parent) => node.kind == .passThrough && parent.kind.deepens

/-- The path of the innermost query around a node; empty if there is none. -/
def queryPathAround (model : Element) (node : Located) : String :=
  queryPathIn (model.upward node.ascent.tail)

/-- How many elements are copied, up to and with the node, whose parent takes them one level
deeper. -/
def depthAt (model : Element) (node : Located) : Nat := depthIn (model.upward node.ascent)

theorem upward_nil (model : Element) : model.upward [] = [model] := rfl

theorem upward_cons {model node : Element} {i : Nat} {above : List Nat}
    (h : model.at? (i :: above).reverse = some node) :
    model.upward (i :: above) = node :: model.upward above := by
  have htails : (i :: above).tails = (i :: above) :: above.tails := rfl
  rw [upward, htails, List.filterMap_cons, h]
  rfl

theorem queryPathIn_of_query {node : Element} (hk : node.kind = .query) (line : List Element) :
    queryPathIn (node :: line) = node.queryPath := by
  simp only [queryPathIn, List.find?_cons, hk, beq_self_eq_true, Option.elim]

theorem queryPathIn_of_ne_query {node : Element} (hk : node.kind ≠ .query) (line : List Element) :
    queryPathIn (node :: line) = queryPathIn line := by
  have hb : (node.kind == .query) = false := beq_eq_false_iff_ne.2 hk
  simp only [queryPathIn, List.find?_cons, hb]

theorem depthIn_of_deeper {node parent : Element} (hk : node.kind = .passThrough)
    (hp : parent.kind.deepens) (line : List Element) :
    depthIn (node :: parent :: line) = depthIn (parent :: line) + 1 := by
  unfold depthIn
  rw [List.tail_cons, List.zip_cons_cons, List.countP_cons_of_pos]
  · rfl
  · simp [hk, hp]

theorem depthIn_of_level {node parent : Element} (h : ¬ (parent.kind.deepens ∧ node.kind = .passThrough))
    (line : List Element) : depthIn (node :: parent :: line) = depthIn (parent :: line) := by
  unfold depthIn
  rw [List.tail_cons, List.zip_cons_cons, List.countP_cons_of_neg]
  · rfl
  · simpa [and_comm] using h

end Element

/-! ## Sessions on the way down -/

/-- The session has a query path and a depth. -/
structure Session.At (queryPath : String) (depth : Nat) (s : Session) : Prop where
  queryPath : s.context.queryPath = queryPath
  depth : s.context.depth = depth

/-- The query path and the depth are the same as before. -/
def KeepsPlace (s s' : Session) : Prop := s'.At s.context.queryPath s.context.depth

theorem Session.At.keeps {queryPath : String} {depth : Nat} {s s' : Session} (h : s.At queryPath depth)
    (hkeeps : KeepsPlace s s') : s'.At queryPath depth :=
  ⟨hkeeps.queryPath.trans h.queryPath, hkeeps.depth.trans h.depth⟩

/-- Directives without content leave the query path and the depth alone. -/
theorem incidental_keepsPlace (loader : Loader) : Incidental loader fun _ => KeepsPlace where
  refl _ := ⟨fun _ => ⟨rfl, rfl⟩⟩
  trans _ := ⟨fun _ _ _ h h' => h.keeps h'⟩
  told _ _ _ _ := ⟨rfl, rfl⟩
  ran _ _ _ _ := ⟨rfl, rfl⟩
  wrote _ _ _ := ⟨rfl, rfl⟩
  drained _ _ := ⟨rfl, rfl⟩
  registered _ _ _ _ := ⟨rfl, rfl⟩

/-- A nested model leaves the query path and the depth alone, whatever it does. -/
theorem keepsPlace_evalNestedModel (setting : Setting) (node : Element) (s : Session) :
    KeepsPlace s (outcome (evalNestedModel setting node) s).2 :=
  (incidental_keepsPlace setting.loader).leads_evalNestedModel .anywhere
    (Q := fun _ _ => True) (fun _ _ _ _ _ => trivial) (fun _ _ _ => ⟨rfl, rfl⟩) node s

/-- The content of a node sees the path of the node if it is a query; a query puts back the path that
it has found. -/
theorem Around.at_content {place : SourcePlace} {node : Element} {s₀ s₁ s₂ s₃ : Session}
    (h : Around (fun _ => KeepsPlace) (fun _ => KeepsPlace) place node s₀ s₁ s₂ s₃)
    {line : List Element} {depth : Nat} (h₀ : s₀.At (Element.queryPathIn line) depth) :
    s₁.At (Element.queryPathIn (node :: line)) depth ∧
      (s₂.At (Element.queryPathIn (node :: line)) depth → s₃.At (Element.queryPathIn line) depth) := by
  unfold Around at h
  cases hk : node.kind with
  | query =>
    simp only [hk] at h
    obtain ⟨s, hs, rfl, rfl⟩ := h
    have hat := h₀.keeps hs
    rw [Element.queryPathIn_of_query hk]
    exact ⟨⟨rfl, hat.depth⟩, fun h₂ => ⟨hat.queryPath, h₂.depth⟩⟩
  | action =>
    simp only [hk] at h
    obtain ⟨s, hs, rfl, rfl⟩ := h
    have hat := h₀.keeps hs
    rw [Element.queryPathIn_of_ne_query (by simp [hk])]
    exact ⟨⟨hat.queryPath, hat.depth⟩, fun h₂ => ⟨h₂.queryPath, h₂.depth⟩⟩
  | model | source | getNode | getContent | literal | passThrough =>
    simp only [hk] at h
    obtain ⟨hs, rfl⟩ := h
    rw [Element.queryPathIn_of_ne_query (by simp [hk])]
    exact ⟨h₀.keeps hs, id⟩

/-- A child begins one level deeper than its parent just where the count of levels grows, and after it
the level is that of the parent again. -/
theorem at_child (node : Element) {parent : Element} {above : List Element} {queryPath : String}
    {s : Session} (h : s.At queryPath (Element.depthIn (parent :: above))) :
    (s.enterChild parent.kind.deepens node).At queryPath (Element.depthIn (node :: parent :: above)) ∧
      ∀ s' : Session, s'.At queryPath (Element.depthIn (node :: parent :: above)) →
        (s'.leaveChild parent.kind.deepens node).At queryPath (Element.depthIn (parent :: above)) := by
  unfold Session.enterChild Session.leaveChild
  by_cases hd : parent.kind.deepens ∧ node.kind = .passThrough
  · simp only [if_pos hd, Element.depthIn_of_deeper hd.2 hd.1]
    exact ⟨⟨h.queryPath, congrArg (· + 1) h.depth⟩,
      fun s' h' => ⟨h'.queryPath, Nat.sub_eq_of_eq_add h'.depth⟩⟩
  · simp only [if_neg hd, Element.depthIn_of_level hd]
    exact ⟨h, fun _ h' => h'⟩

/-! ## Along a course -/

/-- What is known when a node begins. -/
def SeesAround (model : Element) : Moment → Prop
  | .enters node _ _ session =>
    model.at? node.place = some node.element ∧
      session.At (model.queryPathAround node) (model.depthAt node)
  | .leaves _ => True

theorem Course.seesAround {model : Element} {deep : Bool} {place : SourcePlace} {ascent : List Nat}
    {s s' : Session} {moments : List Moment}
    (h : Course (fun _ => KeepsPlace) (fun _ => KeepsPlace) model deep place ascent s moments s')
    {parent : Element} {above : List Element} (hup : model.upward ascent = parent :: above)
    (hdeep : deep = parent.kind.deepens)
    (hs : s.At (Element.queryPathIn (parent :: above)) (Element.depthIn (parent :: above))) :
    (∀ m ∈ moments, SeesAround model m) ∧
      s'.At (Element.queryPathIn (parent :: above)) (Element.depthIn (parent :: above)) := by
  induction h generalizing parent above with
  | nil => exact ⟨fun _ hm => absurd hm List.not_mem_nil, hs⟩
  | @node deep place ascent i node record s s₁ s₂ s₃ s' content rest hat haround _ _ ihcontent ihrest =>
    subst hdeep
    have hupward : model.upward (i :: ascent) = node :: parent :: above := by
      rw [Element.upward_cons hat, hup]
    obtain ⟨hbegins, hends⟩ := at_child node hs
    obtain ⟨hbegun, hended⟩ := haround.at_content hbegins
    obtain ⟨hcontent, hlast⟩ := ihcontent hupward rfl hbegun
    -- the children after this one begin where it has begun
    obtain ⟨hrest, hend⟩ := ihrest hup rfl (hends s₃ (hended hlast))
    refine ⟨fun m hm => ?_, hend⟩
    rcases List.mem_cons.1 hm with rfl | hm
    · refine ⟨hat, ?_⟩
      rw [Element.queryPathAround, Element.depthAt, List.tail_cons, hup, hupward]
      exact hbegins
    · rcases List.mem_append.1 hm with hm | hm
      · exact hcontent m hm
      · rcases List.mem_cons.1 hm with rfl | hm
        · trivial
        · exact hrest m hm

/-! ## Models -/

/-- An element with its own tags around its content, at a given depth. -/
def copyAt (depth : Nat) (options : Options) (node : Element) (body : Eval String) : Eval String :=
  let indent := repeatText options.indent (depth - 1)
  let opening := (if depth > 1 then "\n" else "") ++ indent
  if node.isLeaf then return opening ++ .ofList (node.startTag .closes)
  else do
    let content ← body
    return opening ++ .ofList (node.startTag .opens) ++ content ++ "\n" ++ indent ++
      .ofList node.endTag

/-- An element is copied at the depth of the session in which its evaluation begins. -/
theorem outcome_evalNode_passThrough (setting : Setting) (record : Option Element)
    (place : SourcePlace) {node : Element} (hk : node.kind = .passThrough) (s : Session) :
    outcome (evalNode setting record place node) s =
      outcome (copyAt s.context.depth setting.options node
          (evalEach setting onOwnLine record .anywhere node.children))
        (s.enterNode node) := by
  rw [outcome_evalNode]
  unfold evalDirective
  rw [hk]
  rfl

/-- The evaluation of a model from a fresh context follows its course, up to the output that it writes;
and each node of the course finds the path of the innermost query around it and the depth that the copied
elements down to it make, and if it is copied itself, then at that depth. -/
theorem context_of_enters (setting : Setting) (model : Element) {s : Session}
    (hfresh : s.context = .initial) :
    (∃ s', Follows setting model true .anywhere [] s (courseModel setting model s) s' ∧
      ((outcome (evalModel setting model) s).2 = s' ∨ ∃ output,
        (outcome (evalModel setting model) s).2 =
          (outcome (writeOutput setting.options model output) s').2)) ∧
    ∀ (node : Located) (record : Option Element) (place : SourcePlace) (session : Session),
      .enters node record place session ∈ courseModel setting model s →
      model.at? node.place = some node.element ∧
        session.context.queryPath = model.queryPathAround node ∧
        session.context.depth = model.depthAt node ∧
        (node.element.kind = .passThrough →
          outcome (evalNode setting record place node.element) session =
            outcome (copyAt (model.depthAt node) setting.options node.element
                (evalEach setting onOwnLine record .anywhere node.element.children))
              (session.enterNode node.element)) := by
  refine ⟨exists_follows_evalModel s, fun node record place session hmoment => ?_⟩
  have hk : model.kind = .model := by
    by_contra hk
    rw [courseModel, if_neg hk] at hmoment
    exact absurd hmoment List.not_mem_nil
  obtain ⟨s', hruns⟩ : ∃ s', Course (fun _ => KeepsPlace) (fun _ => KeepsPlace) model true .anywhere []
      s (courseModel setting model s) s' :=
    (exists_course_evalModel (incidental_keepsPlace setting.loader)
      (keepsPlace_evalNestedModel setting) s).imp fun _ h => h.1
  have hstart : s.At (Element.queryPathIn [model]) (Element.depthIn [model]) := by
    rw [Element.queryPathIn_of_ne_query (by simp [hk])]
    exact ⟨congrArg Context.queryPath hfresh, congrArg Context.depth hfresh⟩
  obtain ⟨hall, _⟩ := hruns.seesAround model.upward_nil (by rw [hk]; rfl) hstart
  obtain ⟨hat, hsees⟩ := hall _ hmoment
  refine ⟨hat, hsees.queryPath, hsees.depth, fun hcopied => ?_⟩
  rw [outcome_evalNode_passThrough setting record place hcopied, hsees.depth]

/-- A section in an action in a query in a page in a query in a model. -/
def nestedSections : Element :=
  directive .model [] [directive .query [⟨AttrName.path, "./a"⟩] [
    .ofChildren "page" [directive .query [⟨AttrName.path, "./b/"⟩] [
      .ofChildren "section" [directive .action [] [.ofTag "item"]]]]]]

/-- The action does not take the item deeper than the section. -/
theorem context_of_enters_item :
    ∃ session, .enters ⟨[0, 0, 0, 0, 0, 0], .ofTag "item"⟩ none .anywhere session ∈
        courseModel (settingAt .aggregator 0 .standard) nestedSections (.initial .empty) ∧
      session.context.queryPath = "./b" ∧ session.context.depth = 2 := by
  have hmoment : ∃ session, .enters ⟨[0, 0, 0, 0, 0, 0], .ofTag "item"⟩ none .anywhere session ∈
        courseModel (settingAt .aggregator 0 .standard) nestedSections (.initial .empty) :=
    ⟨_, .tail _ (.tail _ (.tail _ (.tail _ (.tail _ (.head _)))))⟩
  obtain ⟨session, hmem⟩ := hmoment
  obtain ⟨_, hpath, hdepth, _⟩ := (context_of_enters _ nestedSections rfl).2 _ _ _ session hmem
  exact ⟨session, hmem, hpath, hdepth⟩

end Docweave
