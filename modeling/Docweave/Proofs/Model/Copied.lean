import Docweave.Proofs.Model.AtRest
import Docweave.Proofs.Model.Failures
import Docweave.Proofs.Model.Levels
import Docweave.Proofs.Model.Splice
import Docweave.Proofs.Model.Transform
import Docweave.Proofs.Tree.LaidOut
import Docweave.Proofs.Xml.RoundTrip

set_option autoImplicit false

/-! # Copied trees

A tree without directives is copied: the run of a model that renders nothing else gives the markup of
the tree laid out on lines, whatever the indentation of the options, as all of it stands at the first
level. `run_onlyRendered` says that this output is a document again, with the same names in the same
places and nothing but white space besides. -/

namespace Docweave

open Eval

/-! ## Outputs at a level -/

namespace Eval

variable {α β : Type} {P : Failure → Prop} {depth : Nat}

/-- From a session at the level the action gives the value, unless it fails in a way that `P` allows, and
ends at the same level. -/
def Yields (P : Failure → Prop) (depth : Nat) (a : α) (act : Eval α) : Prop :=
  ∀ s, s.context.depth = depth →
    (∀ b, (outcome act s).1 = .ok b → b = a) ∧ (∀ failure, (outcome act s).1 = .error failure → P failure) ∧
      (outcome act s).2.context.depth = depth

namespace Yields

theorem pure (a : α) : Yields P depth a (pure a) := by
  intro s h
  refine ⟨?_, ?_, h⟩
  · rintro b ⟨⟩
    rfl
  · rintro failure ⟨⟩

theorem bind {a : α} {b : β} {act : Eval α} {next : α → Eval β} (hact : Yields P depth a act)
    (hnext : Yields P depth b (next a)) : Yields P depth b (act >>= next) := by
  intro s h
  obtain ⟨hvalue, hfails, hdepth⟩ := hact s h
  rw [outcome_bind]
  cases hs : outcome act s with
  | mk result t =>
    rw [hs] at hvalue hfails hdepth
    cases result with
    | error failure =>
      refine ⟨?_, fun met heq => ?_, hdepth⟩
      · rintro b ⟨⟩
      · obtain rfl := Except.error.inj heq
        exact hfails _ rfl
    | ok value =>
      obtain rfl := hvalue value rfl
      exact hnext t hdepth

theorem get_bind {b : β} {next : Session → Eval β}
    (h : ∀ s, s.context.depth = depth → Yields P depth b (next s)) : Yields P depth b (get >>= next) := by
  intro s hs
  rw [outcome_bind, outcome_get]
  exact h s hs s hs

theorem within {a : α} {enter : Session → Session} {leave : Session → Session → Session}
    {act : Eval α} {inner : Nat} (hact : Yields P inner a act)
    (henter : ∀ s, s.context.depth = depth → (enter s).context.depth = inner)
    (hleave : ∀ s t, t.context.depth = inner → (leave s t).context.depth = depth) :
    Yields P depth a (within enter leave act) := by
  intro s h
  obtain ⟨hvalue, hfails, hdepth⟩ := hact (enter s) (henter s h)
  exact ⟨hvalue, hfails, hleave s _ hdepth⟩

/-- An action without a value that leaves the level alone yields what there is. -/
theorem of_restores {place : SourcePlace} {act : Eval Unit} (hfails : FailsOnly P act)
    (hrestores : Leads (Session.Restores place) act) : Yields P depth () act := by
  intro s h
  exact ⟨fun _ _ => rfl, hfails s, (hrestores s).depth.trans h⟩

end Yields

end Eval

/-! ## Copied elements -/

section Copied

variable {P : Failure → Prop}

theorem yields_tell (depth : Nat) (notice : Notice) : Yields P depth () (tell notice) :=
  fun s h => ⟨fun _ _ => rfl, FailsOnly.tell notice s, h⟩

theorem yields_tellAll (depth : Nat) (notices : List Notice) : Yields P depth () (tellAll notices) :=
  fun s h => ⟨fun _ _ => rfl, FailsOnly.tellAll notices s, h⟩

theorem yields_evalQuery {output : String} {node : Element} {body : Eval String} {depth : Nat}
    (hbody : Yields P depth output body) : Yields P depth output (evalQuery node body) := by
  rw [evalQuery_eq]
  exact (yields_tellAll depth _).bind (hbody.within (fun _ h => h) fun _ _ h => h)

theorem yields_deepen {output : String} {node : Element} {act : Eval String}
    (hk : node.kind = .passThrough) (hact : Yields P 1 output act) :
    Yields P 0 output (deepen node act) := by
  unfold deepen
  rw [if_pos hk]
  refine hact.within (fun s h => ?_) fun _ t h => ?_
  · simp only [h]
  · simp only [h]

/-- At the first level an element has no line in front of it and no indentation. -/
theorem yields_evalPassThrough {options : Options} {node : Element} {content : String}
    {body : Eval String} (hbody : Yields P 1 content body) :
    Yields P 1
      (if node.isLeaf then .ofList (node.startTag .closes)
      else .ofList (node.startTag .opens) ++ content ++ "\n" ++ .ofList node.endTag)
      (evalPassThrough options node body) := by
  refine Yields.get_bind fun s h => ?_
  have hindent : repeatText options.indent (s.context.depth - 1) = "" := by
    rw [h]
    rfl
  have hline : (if s.context.depth > 1 then "\n" else "") = "" := by rw [h]; rfl
  simp only [hindent, hline, String.empty_append, String.append_empty]
  by_cases hl : node.isLeaf
  · rw [if_pos hl, if_pos hl]
    exact .pure _
  · rw [if_neg hl, if_neg hl]
    exact hbody.bind (.pure _)

namespace Element

theorem markup_laidOut_of_isLeaf {e : Element} (h : e.isLeaf) :
    (e.laidOut none).markup = e.startTag .closes := by
  cases e with
  | mk name attributes text tail children =>
    obtain rfl : children = [] := List.isEmpty_iff.1 h
    rw [laidOut, markup_of_isHollow rfl]
    exact List.append_nil _

theorem markup_laidOut_of_not_isLeaf {e : Element} (h : ¬ e.isLeaf) :
    (e.laidOut none).markup = e.startTag .opens ++ markupAll (e.children.map (laidOut none)) ++
      ['\n'] ++ e.endTag := by
  cases e with
  | mk name attributes text tail children =>
    have hne : children ≠ [] := fun hnil => h (List.isEmpty_iff.2 hnil)
    have hhollow : (laidOut none ⟨name, attributes, text, tail, children⟩).isHollow = false := by
      cases children with
      | nil => exact absurd rfl hne
      | cons e rest => rfl
    rw [markup_of_not_isHollow hhollow, laidOut, markupAll_laidOutAll hne]
    have hempty : textMarkup none = [] := rfl
    simp only [hempty, List.append_nil, List.nil_append, List.append_assoc]
    rfl

end Element

mutual

/-- A tree of copied elements gives the markup of the tree laid out on lines. -/
theorem yields_evalNode (setting : Setting) (record : Option Element) (place : SourcePlace) :
    (node : Element) → node.Everywhere (fun e => e.kind = .passThrough) →
      Yields P 1 (.ofList (node.laidOut none).markup) (evalNode setting record place node)
  | ⟨name, attributes, text, tail, children⟩, hnode => by
    obtain ⟨hk, hchildren⟩ := Element.everywhere_iff.1 hnode
    have hcontent := yields_evalEach setting record .anywhere children hchildren
    unfold evalNode
    refine (yields_tell 1 _).bind ?_
    rw [hk]
    have hcopied := @yields_evalPassThrough P setting.options ⟨name, attributes, text, tail, children⟩ _ _
      hcontent
    by_cases hl : Element.isLeaf ⟨name, attributes, text, tail, children⟩
    · rw [if_pos hl] at hcopied
      rw [Element.markup_laidOut_of_isLeaf hl]
      exact hcopied
    · rw [if_neg hl] at hcopied
      rw [Element.markup_laidOut_of_not_isLeaf hl, String.ofList_append, String.ofList_append,
        String.ofList_append]
      exact hcopied

theorem yields_evalEach (setting : Setting) (record : Option Element) (place : SourcePlace) :
    (nodes : List Element) → (∀ node ∈ nodes, node.Everywhere fun e => e.kind = .passThrough) →
      Yields P 1 (.ofList (Element.markupAll (nodes.map (Element.laidOut none))))
        (evalEach setting onOwnLine record place nodes)
  | [], _ => .pure ""
  | node :: rest, hnodes => by
    obtain ⟨hnode, hrest⟩ := List.forall_mem_cons.1 hnodes
    obtain ⟨hk, -⟩ := Element.everywhere_iff.1 hnode
    have hline : startsLine node.kind = false := by rw [hk]; rfl
    unfold evalEach
    rw [List.map_cons, Element.markupAll, String.ofList_append]
    refine Yields.bind ?_ ((yields_evalEach setting record place rest hrest).bind (.pure _))
    unfold onOwnLine
    refine (yields_evalNode setting record place node hnode).bind ?_
    rw [hline, Bool.and_false]
    exact .pure _

end

end Copied

/-! ## Models that render a tree -/

/-- Beside sources, which render nothing, the tree stands alone among the nodes, or in a query that does. -/
inductive OnlyRendered (tree : Element) : List Element → Prop where
  | here {before after : List Element} (hbefore : ∀ node ∈ before, node.kind = .source)
      (hafter : ∀ node ∈ after, node.kind = .source) : OnlyRendered tree (before ++ tree :: after)
  | inQuery {before after : List Element} {query : Element}
      (hbefore : ∀ node ∈ before, node.kind = .source) (hafter : ∀ node ∈ after, node.kind = .source)
      (hk : query.kind = .query) (hinside : OnlyRendered tree query.children) :
    OnlyRendered tree (before ++ query :: after)

section Rendered

variable {P : Failure → Prop} {setting : Setting} (record : Option Element)

/-- What a node begins with makes no difference. -/
theorem yields_of_evalDirective {depth : Nat} {output : String} {place : SourcePlace} {node : Element}
    (h : Yields P depth output (evalDirective setting record place node)) :
    Yields P depth output (evalNode setting record place node) := by
  intro s hs
  rw [outcome_evalNode]
  exact h (s.enterNode node) hs

/-- Sources render nothing, and fail as they do when they are registered. -/
theorem yields_sources (place : SourcePlace) {nodes : List Element}
    (hsources : ∀ node ∈ nodes, node.kind = .source)
    (hfails : ∀ node ∈ nodes, FailsOnly P (evalSource setting place node)) :
    Yields P 0 "" (evalEach setting deepen record place nodes) := by
  induction nodes with
  | nil => exact .pure ""
  | cons node rest ih =>
    rw [List.forall_mem_cons] at hsources hfails
    have hplain : deepen node (evalNode setting record place node) =
        evalNode setting record place node := if_neg (by rw [hsources.1]; decide)
    have hrestores := (Session.persistent_restores setting.loader).leads_evalSource place rfl node
    have hnode : Yields P 0 "" (deepen node (evalNode setting record place node)) := by
      rw [hplain]
      refine yields_of_evalDirective record ?_
      unfold evalDirective
      rw [hsources.1]
      exact (Yields.of_restores hfails.1 hrestores).bind (.pure "")
    exact hnode.bind ((ih hsources.2 hfails.2).bind (.pure _))

/-- A node between sources yields what it yields alone. -/
theorem yields_between {output : String} {place : SourcePlace} {before after : List Element}
    {node : Element} (hbefore : ∀ node ∈ before, node.kind = .source)
    (hafter : ∀ node ∈ after, node.kind = .source)
    (hfails : ∀ source ∈ Element.preorder (before ++ node :: after), source.kind = .source →
      ∀ place, FailsOnly P (evalSource setting place source))
    (hnode : Yields P 0 output (deepen node (evalNode setting record place node))) :
    Yields P 0 output (evalEach setting deepen record place (before ++ node :: after)) := by
  have hmem : ∀ source ∈ before ++ node :: after,
      source ∈ Element.preorder (before ++ node :: after) :=
    fun source h => Element.mem_preorder_iff.2 ⟨source, h, List.mem_cons_self⟩
  have hfirst := yields_sources record place hbefore fun source h =>
    hfails source (hmem source (by simp [h])) (hbefore source h) place
  have hlast := yields_sources record place hafter fun source h =>
    hfails source (hmem source (by simp [h])) (hafter source h) place
  have houtput : output = "" ++ (output ++ "") := by rw [String.empty_append, String.append_empty]
  rw [evalEach_append, evalEach, houtput]
  exact hfirst.bind ((hnode.bind (hlast.bind (.pure (output ++ "")))).bind (.pure _))

/-- Nodes among which only a tree is rendered yield what the tree yields. -/
theorem yields_onlyRendered {tree : Element} {nodes : List Element} (h : OnlyRendered tree nodes)
    (htree : tree.Everywhere fun e => e.kind = .passThrough)
    (hfails : ∀ source ∈ Element.preorder nodes, source.kind = .source →
      ∀ place, FailsOnly P (evalSource setting place source)) (place : SourcePlace) :
    Yields P 0 (tree.laidOut none).toXml (evalEach setting deepen record place nodes) := by
  induction h generalizing place with
  | here hbefore hafter =>
    refine yields_between record hbefore hafter hfails ?_
    rw [Element.toXml_eq]
    exact yields_deepen (Element.everywhere_iff.1 htree).1 (yields_evalNode setting record place tree htree)
  | @inQuery before after query hbefore hafter hk _ ih =>
    have hinside : ∀ source ∈ Element.preorder query.children,
        source ∈ Element.preorder (before ++ query :: after) := by
      intro source hmem
      refine Element.mem_preorder_iff.2 ⟨query, by simp, List.mem_cons_of_mem _ ?_⟩
      rw [Element.descendants_eq]
      exact hmem
    have hplain : deepen query (evalNode setting record place query) =
        evalNode setting record place query := if_neg (by rw [hk]; decide)
    refine yields_between record hbefore hafter hfails ?_
    rw [hplain]
    refine yields_of_evalDirective record ?_
    unfold evalDirective
    rw [hk]
    exact yields_evalQuery (ih (fun source hmem => hfails source (hinside source hmem)) .inQuery)

/-- A model among whose children only a tree is rendered yields what the tree yields. -/
theorem yields_evalModel {tree model : Element} (hk : model.kind = .model)
    (h : OnlyRendered tree model.children) (htree : tree.Everywhere fun e => e.kind = .passThrough)
    (hfails : ∀ source ∈ model.descendants, source.kind = .source →
      ∀ place, FailsOnly P (evalSource setting place source))
    (hio : (model.attr? AttrName.output).isSome → setting.options.writeOutput →
      ∀ problem, P (.io problem)) :
    Yields P 0 (tree.laidOut none).toXml (evalModel setting model) := by
  rw [Element.descendants_eq] at hfails
  have hwritten : Yields P 0 () (writeOutput setting.options model (tree.laidOut none).toXml) :=
    .of_restores (failsOnly_writeOutput setting.options model hio _)
      ((Session.persistent_restores setting.loader).leads_writeOutput .anywhere _ model _)
  unfold evalModel
  rw [if_pos hk]
  exact (yields_onlyRendered none h htree hfails .anywhere).bind (hwritten.bind (.pure _))

end Rendered

/-! ## The output is a document -/

namespace Element

/-- An element in no namespace is no directive. -/
theorem IsNamespaceFree.kind_eq {e : Element} (h : e.IsNamespaceFree) : e.kind = .passThrough := by
  unfold kind DirectiveKind.ofName
  rw [h.name]
  rfl

theorem isAllowed_lineFeed : IsAllowed ['\n'] := by
  intro c hc
  rw [List.mem_singleton.1 hc]
  decide

mutual

/-- Laid out on lines, a tree can be written if it could be before. -/
theorem everywhere_isWritable_laidOut {tail : Option String} (htail : tail = none ∨ tail = some "\n") :
    (e : Element) → e.Everywhere IsWritable → (e.laidOut tail).Everywhere IsWritable
  | ⟨name, attributes, text, oldTail, children⟩, he => by
    obtain ⟨hself, hchildren⟩ := everywhere_iff.1 he
    have hallowed : IsAllowed (tail.getD "").toList := by
      rcases htail with rfl | rfl
      · exact .nil
      · exact isAllowed_lineFeed
    rw [laidOut]
    exact everywhere_iff.2
      ⟨⟨hself.plain, hself.name, hself.attributes, hself.distinct, .nil, hallowed⟩,
        everywhere_isWritable_laidOutAll children hchildren⟩

theorem everywhere_isWritable_laidOutAll :
    (es : List Element) → (∀ e ∈ es, e.Everywhere IsWritable) →
      ∀ e ∈ laidOutAll es, e.Everywhere IsWritable
  | [], _ => fun _ h => absurd h List.not_mem_nil
  | e :: rest, hes => by
    obtain ⟨he, hrest⟩ := List.forall_mem_cons.1 hes
    rw [laidOutAll, List.forall_mem_cons]
    refine ⟨everywhere_isWritable_laidOut ?_ e he, everywhere_isWritable_laidOutAll rest hrest⟩
    split
    · exact .inr rfl
    · exact .inl rfl

end

/-- A tree that can be written is read again from its markup on lines, up to its texts. -/
theorem parse_laidOut {e : Element} (he : e.Everywhere IsWritable) (again : Nat) :
    parse again (e.laidOut none).toXml = .ok (e.laidOut none).reread := by
  have hwritable := everywhere_isWritable_laidOut (.inl rfl) e he
  have htail : (e.laidOut none).tail = none := by cases e; rfl
  rw [parse, toXml_eq, String.toList_ofList, parse_markup hwritable htail]
  rfl

end Element

namespace Interpreter

/-- A failure of a run that has nothing to do with what is rendered: a source fails for good, or the
output cannot be written to the file that it should go to. -/
inductive FailsAside (interpreter : Interpreter) (model : Element) : Failure → Prop where
  | source {source : Element} {failure : Failure} (hmem : source ∈ model.descendants)
      (hk : source.kind = .source) (h : failure.OfScript ∨ interpreter.loader.GivesUp failure) :
    FailsAside interpreter model failure
  | output (problem : FileProblem) (htarget : (model.attr? AttrName.output).isSome)
      (hwrites : interpreter.options.writeOutput) : FailsAside interpreter model (.io problem)

theorem yields_run {interpreter : Interpreter} {tree model : Element} (hk : model.kind = .model)
    (honly : OnlyRendered tree model.children) (htree : tree.Everywhere fun e => e.kind = .passThrough) :
    Yields (interpreter.FailsAside model) 0 (tree.laidOut none).toXml
      (evalModelAt interpreter.loader interpreter.options.maxNesting interpreter.options model) := by
  rw [evalModelAt_eq]
  refine yields_evalModel hk honly htree (fun source hmem hsource place => ?_) fun htarget hwrites problem =>
    .output problem htarget hwrites
  exact failsOnly_evalSource (fun _ h => .source hmem hsource (.inl h))
    (fun _ h => .source hmem hsource (.inr h)) place source

/-- A model that renders nothing but one tree without namespaces, taken from any document that was read,
is run to an output that is read again: with the same names of elements and attributes, nested in the
same way, and with no texts but white space. There is an output unless something fails aside. -/
theorem run_onlyRendered {interpreter : Interpreter} (hreachable : interpreter.Reachable) {file : Nat}
    {text : String} {document tree model : Element} (hread : Element.parse file text = .ok document)
    (htree : tree ∈ document :: document.descendants) (hfree : tree.Everywhere Element.IsNamespaceFree)
    (hk : model.kind = .model) (honly : OnlyRendered tree model.children) :
    (∀ output, (interpreter.run model).1 = .ok output → ∀ again, ∃ read,
      Element.parse again output = .ok read ∧ read.skeleton = tree.skeleton ∧
        read.Everywhere Element.IsSpaced) ∧
      ∀ failure, (interpreter.run model).1 = .error failure → interpreter.FailsAside model failure := by
  obtain ⟨hsound, -⟩ := Element.everywhere_of_parse (Element.xml_parse_of_parse hread)
  have hwritable : tree.Everywhere Element.IsWritable := fun node hmem =>
    hsound.of_mem htree node hmem (hfree node hmem)
  have hcopied : tree.Everywhere fun e => e.kind = .passThrough := fun node hmem =>
    (hfree node hmem).kind_eq
  have hdepth : interpreter.session.context.depth = 0 := by
    rw [hreachable.atRest.context]
    rfl
  obtain ⟨hvalue, hfailure, -⟩ := yields_run hk honly hcopied interpreter.session hdepth
  refine ⟨fun output hrun again => ?_, hfailure⟩
  obtain rfl := hvalue output hrun
  exact ⟨(tree.laidOut none).reread, Element.parse_laidOut hwritable again,
    (Element.skeleton_reread _).trans (Element.skeleton_laidOut none tree),
    Element.everywhere_isSpaced (.inl rfl) tree⟩

/-- The text of a tree in which elements with and without content stand side by side. -/
def pageText : String := "<page lang=\"en\">draft<title/><body id=\"&lt;1&gt;\"><note/></body></page>"

/-- A model that renders a tree from within two queries. -/
def queriedModel (tree : Element) : Element :=
  directive .model [] [directive .query [] [directive .query [] [tree]]]

theorem onlyRendered_queriedModel (tree : Element) : OnlyRendered tree (queriedModel tree).children :=
  @OnlyRendered.inQuery tree [] [] _ nofun nofun rfl
    (@OnlyRendered.inQuery tree [] [] _ nofun nofun rfl (@OnlyRendered.here tree [] [] nofun nofun))

theorem run_onlyRendered_page :
    ∃ page output read, Element.parse 0 pageText = .ok page ∧
      (emptyInterpreter.run (queriedModel page)).1 = .ok output ∧
      Element.parse 0 output = .ok read ∧ read.skeleton = page.skeleton ∧
      read.Everywhere Element.IsSpaced := by
  have hplain : (Element.parse 0 pageText).toOption.map
      (fun page => decide (page.Everywhere Element.IsNamespaceFree)) = some true := by decide +kernel
  cases hread : Element.parse 0 pageText with
  | error error =>
    rw [hread] at hplain
    cases hplain
  | ok page =>
    rw [hread] at hplain
    have hfree : page.Everywhere Element.IsNamespaceFree := of_decide_eq_true (Option.some.inj hplain)
    have hreachable : emptyInterpreter.Reachable := ⟨_, _, _, [], rfl⟩
    have hkind : (queriedModel page).kind = .model := rfl
    obtain ⟨hreads, hfails⟩ := run_onlyRendered hreachable hread List.mem_cons_self hfree hkind
      (onlyRendered_queriedModel page)
    cases hrun : (emptyInterpreter.run (queriedModel page)).1 with
    | ok output =>
      obtain ⟨read, hagain, hskeleton, hspaced⟩ := hreads output hrun 0
      exact ⟨page, output, read, rfl, hrun, hagain, hskeleton, hspaced⟩
    | error failure =>
      -- there is no source in the model, and no file for the output
      cases hfails failure hrun with
      | output problem htarget => cases htarget
      | @source source _ hmem hk =>
        simp only [queriedModel, directive, Element.descendants_eq, Element.preorder, List.append_nil,
          List.mem_cons] at hmem
        rcases hmem with rfl | rfl | hmem
        · cases hk
        · cases hk
        · rw [← Element.descendants_eq, ← List.mem_cons] at hmem
          rw [(hfree source hmem).kind_eq] at hk
          cases hk

end Interpreter

end Docweave
